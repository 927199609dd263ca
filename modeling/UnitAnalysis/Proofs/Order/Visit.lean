import UnitAnalysis.Proofs.Order.Names
import UnitAnalysis.Proofs.Symbols.Bodies

/-!
# Bodies, one by one

The walk through a body depends on the body, on what is shown for its own nodes and on the declared
types. It opens scopes with the next free numbers, so two walks through one body may open scopes of
different numbers; what the constructions show for the nodes is the same all the same.
`Build.Walks` says so of a step, and `visitDecl_walks` of the walk through a declaration.
-/

set_option autoImplicit false

namespace UnitAnalysis

/-! ## Walks -/

namespace Builder

/-- The global scope is there, and so is every scope that is remembered for a node. No scope but the
global one is remembered for two nodes. -/
structure Rooted (b : Builder) : Prop where
  bounded : b.table.Bounded
  pos : 0 < b.table.scopes.size
  alone : ∀ {id id' scope}, b.table.scopeMap.get? id = some scope →
    b.table.scopeMap.get? id' = some scope → scope ≠ .global → id = id'

theorem rooted_empty : Rooted {} :=
  ⟨fun _ _ hid => (nomatch hid), Nat.one_pos, fun hid => (nomatch hid)⟩

theorem Rooted.of_sameScopes {b c : Builder} (h : b.Rooted) (hs : SameScopes b c) : c.Rooted where
  bounded id scope hid := hs.size ▸ h.bounded id scope (hs.scopeMap ▸ hid)
  pos := hs.size ▸ h.pos
  alone hid hid' := h.alone (hs.scopeMap ▸ hid) (hs.scopeMap ▸ hid')

theorem Rooted.receives {b : Builder} (h : b.Rooted) : b.Receives none .global :=
  ⟨h.pos, by simp, by simp, by simp⟩

/-- The scopes that nodes remember, between two states of a walk that works on some keys. A node
that remembers a scope goes on to do so. This becomes the global scope only where the walk works on
global names. -/
structure Remembers (W : Set Key) (b c : Builder) : Prop where
  isSome : ∀ {id}, (b.table.scopeMap.get? id).isSome → (c.table.scopeMap.get? id).isSome
  global : ∀ name, .global name ∉ W → ∀ {id}, c.table.scopeMap.get? id = some .global →
    b.table.scopeMap.get? id = some .global

namespace Remembers

variable {W : Set Key} {b c d : Builder}

theorem of_eq (h : c.table.scopeMap = b.table.scopeMap) : Remembers W b c :=
  ⟨fun hid => h ▸ hid, fun _ _ _ hid => h ▸ hid⟩

theorem trans (h : Remembers W b c) (h' : Remembers W c d) : Remembers W b d :=
  ⟨fun hid => h'.isSome (h.isSome hid),
    fun name hW _ hid => h.global name hW (h'.global name hW hid)⟩

end Remembers

/-- Two walks went from `b` and `b'` to `c` and `c'` in the same way. -/
structure Walked (W : Set Key) (b b' c c' : Builder) : Prop where
  moves : Moves W b b' c c'
  rooted : c.Rooted
  rooted' : c'.Rooted
  remembers : Remembers W b c

theorem Walked.trans {W : Set Key} {b b' c c' d d' : Builder} (h : Walked W b b' c c')
    (h' : Walked W c c' d d') : Walked W b b' d d' :=
  ⟨h.moves.trans h'.moves, h'.rooted, h'.rooted', h.remembers.trans h'.remembers⟩

section Enter

variable {b : Builder} (hb : b.Rooted) (place : ScopeId) (kind : ScopeKind) (id : NodeId)

theorem size_enter : ((Build.enter place kind id).run b).2.table.scopes.size =
    b.table.scopes.size + 1 :=
  Arena.size_enter ..

include hb

theorem get?_scopeMap_enter {other : NodeId} {scope : ScopeId}
    (h : ((Build.enter place kind id).run b).2.table.scopeMap.get? other = some scope) :
    (other = id ∧ scope = ⟨b.table.scopes.size⟩) ∨
      (other ≠ id ∧ b.table.scopeMap.get? other = some scope ∧
        scope.index < b.table.scopes.size) := by
  change (b.table.scopeMap.insert id ⟨b.table.scopes.size⟩).get? other = some scope at h
  by_cases heq : id = other
  · subst heq
    rw [Table.get?_insert_self] at h
    exact .inl ⟨rfl, (Option.some.inj h).symm⟩
  · rw [Table.get?_insert_of_ne _ heq] at h
    exact .inr ⟨Ne.symm heq, h, hb.bounded other scope h⟩

theorem rooted_enter : ((Build.enter place kind id).run b).2.Rooted where
  bounded other scope hother := by
    rw [size_enter]
    rcases get?_scopeMap_enter hb place kind id hother with ⟨-, rfl⟩ | ⟨-, -, hlt⟩
    · exact Nat.lt_succ_self _
    · exact Nat.lt_succ_of_lt hlt
  pos := by
    rw [size_enter]
    exact Nat.succ_pos _
  alone hother hother' hne := by
    -- The new scope is remembered for the new node only.
    rcases get?_scopeMap_enter hb place kind id hother with ⟨rfl, rfl⟩ | ⟨-, hmap, hlt⟩
    · rcases get?_scopeMap_enter hb place kind _ hother' with ⟨rfl, -⟩ | ⟨-, -, hlt⟩
      · rfl
      · exact absurd hlt (Nat.lt_irrefl _)
    · rcases get?_scopeMap_enter hb place kind id hother' with ⟨-, rfl⟩ | ⟨-, hmap', -⟩
      · exact absurd hlt (Nat.lt_irrefl _)
      · exact hb.alone hmap hmap' hne

theorem remembers_enter (W : Set Key) :
    Remembers W b ((Build.enter place kind id).run b).2 where
  isSome {other} hother := by
    change ((b.table.scopeMap.insert id ⟨b.table.scopes.size⟩).get? other).isSome
    by_cases heq : id = other
    · rw [heq, Table.get?_insert_self]
      rfl
    · rwa [Table.get?_insert_of_ne _ heq]
  global _ _ _ hother := by
    rcases get?_scopeMap_enter hb place kind id hother with ⟨-, hzero⟩ | ⟨-, hmap, -⟩
    · have hsize : 0 = b.table.scopes.size := congrArg ScopeId.index hzero
      exact absurd hb.pos (hsize ▸ Nat.lt_irrefl 0)
    · exact hmap

/-- The scope that was just opened belongs to its node alone. -/
theorem receives_enter :
    ((Build.enter place kind id).run b).2.Receives (some id) ⟨b.table.scopes.size⟩ where
  inside := by
    rw [size_enter]
    exact Nat.lt_succ_self _
  isGlobal := by
    refine ⟨fun h => absurd h (Option.some_ne_none id), fun h => ?_⟩
    have hzero : b.table.scopes.size = 0 := congrArg ScopeId.index h
    exact absurd hb.pos (hzero ▸ Nat.lt_irrefl 0)
  opened other hother := by
    cases hother
    exact Table.get?_insert_self _ _ _
  alone other hother := by
    cases hother
    intro third hthird
    rcases get?_scopeMap_enter hb place kind id hthird with ⟨rfl, -⟩ | ⟨-, -, hlt⟩
    · rfl
    · exact absurd hlt (Nat.lt_irrefl _)

/-- Opening a scope is shown for its node: there are no symbols in it. -/
theorem sets_enter : Sets (.node id) (fun r => { r with symbols := fun _ => none }) b
    ((Build.enter place kind id).run b).2 := by
  have hlocal : ∀ scope : ScopeId, scope.index < b.table.scopes.size → ∀ name,
      (b.table.scopes.enter place kind).2.lookupLocal scope name =
        b.table.scopes.lookupLocal scope name := by
    intro scope hlt name
    simp only [Arena.lookupLocal, Arena.get?_enter_of_lt _ _ _ hlt]
  refine sets_scopes b (b.table.scopes.enter place kind).2
    (b.table.scopeMap.insert id ⟨b.table.scopes.size⟩) (fun _ _ => none) ?_ (fun other hother => ?_)
    (hlocal .global hb.pos)
  · funext name
    simp only [SymbolTable.symbolOf, Table.get?_insert_self, Arena.lookupLocal,
      Arena.get?_enter_self]
    exact ite_self none
  · funext name
    simp only [SymbolTable.symbolOf, Table.get?_insert_of_ne _ (Ne.symm hother)]
    cases hscope : b.table.scopeMap.get? other with
    | none => rfl
    | some scope => simp only [hlocal scope (hb.bounded other scope hscope) name]

end Enter

/-- A node that remembers the global scope opened no scope. -/
theorem sets_remember (b : Builder) (id : NodeId) :
    Sets (.node id) (fun r => { r with symbols := fun _ => none }) b
      { b with table := { b.table with scopeMap := b.table.scopeMap.insert id .global } } := by
  refine sets_scopes b b.table.scopes _ (fun _ _ => none) ?_ (fun other hother => ?_) fun _ => rfl
  · funext name
    simp only [SymbolTable.symbolOf, Table.get?_insert_self, if_pos]
  · funext name
    simp only [SymbolTable.symbolOf, Table.get?_insert_of_ne _ (Ne.symm hother)]

theorem rooted_remember {b : Builder} (hb : b.Rooted) (id : NodeId) :
    Rooted { b with table := { b.table with scopeMap := b.table.scopeMap.insert id .global } } where
  bounded := Table.forall_get?_insert hb.pos hb.bounded
  pos := hb.pos
  alone {other third scope} hother hthird hne := by
    have hne' : ∀ node, (b.table.scopeMap.insert id .global).get? node = some scope → id ≠ node := by
      rintro node hnode rfl
      rw [Table.get?_insert_self] at hnode
      exact hne (Option.some.inj hnode).symm
    rw [Table.get?_insert_of_ne _ (hne' other hother)] at hother
    rw [Table.get?_insert_of_ne _ (hne' third hthird)] at hthird
    exact hb.alone hother hthird hne

theorem remembers_remember (W : Set Key) (hW : ∀ name, .global name ∈ W) (b : Builder)
    (id : NodeId) :
    Remembers W b
      { b with table := { b.table with scopeMap := b.table.scopeMap.insert id .global } } where
  isSome {other} hother := by
    by_cases heq : id = other
    · rw [heq, Table.get?_insert_self]
      rfl
    · rwa [Table.get?_insert_of_ne _ heq]
  global name hname := absurd (hW name) hname

end Builder

/-- What the walk through a declaration works on: its nodes, and the global names when it is a
statement of the script. -/
def Decl.visitKeys (d : Decl) : Set Key :=
  fun
    | .node id => id ∈ d.ids
    | .global _ => d.isScript = true
    | .declared _ => False
    | .type _ => False

namespace Build

open Builder

variable {W : Set Key} {α β : Type} {ids ids' : List NodeId} {id : NodeId}
  {inner inner' : ScopeId}

/-- A step walks through something with the given nodes. It works on the keys `W`, which are to have
these nodes, and reads declared types. -/
structure Walks (W : Set Key) (ids : List NodeId) {α : Type} (x y : Build α) : Prop where
  run : (∀ id ∈ ids, .node id ∈ W) → ∀ b b' : Builder, b.Rooted → b'.Rooted → AgreeOn W b b' →
    AgreeOn Key.index b b' → Walked W b b' (x.run b).2 (y.run b').2

/-- A step goes on after a scope was opened for a node. -/
structure Furnishes (W : Set Key) (id : NodeId) (inner inner' : ScopeId) (ids : List NodeId)
    {α : Type} (x y : Build α) : Prop where
  run : .node id ∈ W → (∀ id ∈ ids, .node id ∈ W) → ∀ b b' : Builder, b.Rooted → b'.Rooted →
    b.Receives (some id) inner → b'.Receives (some id) inner' → AgreeOn W b b' →
    AgreeOn Key.index b b' → Walked W b b' (x.run b).2 (y.run b').2

namespace Walks

theorem pure (a a' : α) : Walks W [] (Pure.pure a) (Pure.pure a') :=
  ⟨fun _ _ _ hb hb' hW _ => ⟨.refl hW, hb, hb', .of_eq rfl⟩⟩

theorem bind {x y : Build α} {f g : α → Build β} (hx : Walks W ids x y)
    (hf : ∀ a a', Walks W ids' (f a) (g a')) : Walks W (ids ++ ids') (x >>= f) (y >>= g) := by
  refine ⟨fun hids b b' hb hb' hW hindex => ?_⟩
  have h := hx.run (fun id hid => hids id (List.mem_append_left _ hid)) b b' hb hb' hW hindex
  have h' := (hf (x.run b).1 (y.run b').1).run
    (fun id hid => hids id (List.mem_append_right _ hid)) (x.run b).2 (y.run b').2 h.rooted h.rooted'
    h.moves.agree (h.moves.agree_of hindex)
  exact h.trans h'

theorem mono {x y : Build α} (hx : Walks W ids x y) (hsub : ids ⊆ ids') : Walks W ids' x y :=
  ⟨fun hids => hx.run fun id hid => hids id (hsub hid)⟩

theorem forM {ι : Type} {f g : ι → Build Unit} {ids : ι → List NodeId} (xs : List ι)
    (h : ∀ x, Walks W (ids x) (f x) (g x)) :
    Walks W (xs.flatMap ids) (xs.forM f) (xs.forM g) := by
  induction xs with
  | nil => exact pure _ _
  | cons x xs ih => exact (h x).bind fun _ _ => ih

/-- A walk leaves a construction rooted. -/
theorem rooted {x : Build α} (h : Walks Set.univ ids x x) {b : Builder} (hb : b.Rooted) :
    (x.run b).2.Rooted :=
  (h.run (fun _ _ => trivial) b b hb hb (.refl _ _) (.refl _ _)).rooted

theorem get_bind {f g : Builder → Build α}
    (hf : ∀ b b', (∀ id ∈ ids, .node id ∈ W) → AgreeOn W b b' → AgreeOn Key.index b b' →
      Walks W ids (f b) (g b')) : Walks W ids (get >>= f) (get >>= g) :=
  ⟨fun hids b b' hb hb' hW hindex =>
    (hf b b' hids hW hindex).run hids b b' hb hb' hW hindex⟩

theorem of_fills {x y : Build α}
    (h : (∀ id ∈ ids, .node id ∈ W) → Fills W Key.index none .global .global x y) :
    Walks W ids x y := by
  refine ⟨fun hids b b' hb hb' hW hindex => ?_⟩
  have hfills := (h hids).run b b' hb.receives hb'.receives hW hindex
  exact ⟨hfills.moves, hb.of_sameScopes hfills.scopes, hb'.of_sameScopes hfills.scopes',
    .of_eq hfills.scopes.scopeMap⟩

theorem visit (v v' : Visit) : Walks W [] (Build.visit v) (Build.visit v') :=
  ⟨fun _ b b' hb hb' hW _ => ⟨.of_view (view_congr rfl rfl rfl) (view_congr rfl rfl rfl) hW
    (logs_nothing b b'), ⟨hb.bounded, hb.pos, hb.alone⟩, ⟨hb'.bounded, hb'.pos, hb'.alone⟩,
    .of_eq rfl⟩⟩

/-- A construct opens the next scope of each construction. -/
theorem opening {place place' : ScopeId} {kind : ScopeKind} {f g : ScopeId → Build α}
    (h : ∀ inner inner', Furnishes W id inner inner' ids (f inner) (g inner')) :
    Walks W (id :: ids) (enter place kind id >>= f) (enter place' kind id >>= g) := by
  refine ⟨fun hids b b' hb hb' hW hindex => ?_⟩
  have hid : .node id ∈ W := hids id List.mem_cons_self
  have henter : Moves W b b' ((enter place kind id).run b).2 ((enter place' kind id).run b').2 :=
    (sets_enter hb place kind id).moves (sets_enter hb' place' kind id) hid hW (logs_nothing b b')
  have hrest := (h ⟨b.table.scopes.size⟩ ⟨b'.table.scopes.size⟩).run hid
    (fun id hid => hids id (List.mem_cons_of_mem _ hid)) _ _ (rooted_enter hb place kind id)
    (rooted_enter hb' place' kind id) (receives_enter hb place kind id)
    (receives_enter hb' place' kind id) henter.agree (henter.agree_of hindex)
  exact ⟨henter.trans hrest.moves, hrest.rooted, hrest.rooted',
    (remembers_enter hb place kind id W).trans hrest.remembers⟩

end Walks

namespace Furnishes

theorem of_walks {x y : Build α} (h : Walks W ids x y) : Furnishes W id inner inner' ids x y :=
  ⟨fun _ hids b b' hb hb' _ _ hW hindex => h.run hids b b' hb hb' hW hindex⟩

/-- The scope receives names before the step goes on. -/
theorem fill {x y : Build α} {f g : α → Build β}
    (hx : .node id ∈ W → (∀ name, symbolKey (some id) name ∈ W) → (∀ id ∈ ids, .node id ∈ W) →
      Fills W Key.index (some id) inner inner' x y)
    (hf : ∀ a, Furnishes W id inner inner' ids' (f a) (g a)) :
    Furnishes W id inner inner' (ids ++ ids') (x >>= f) (y >>= g) := by
  refine ⟨fun hid hids b b' hb hb' hopen hopen' hW hindex => ?_⟩
  have h := (hx hid (fun _ => hid) fun id hid => hids id (List.mem_append_left _ hid)).run b b'
    hopen hopen' hW hindex
  have h' := (hf (x.run b).1).run hid (fun id hid => hids id (List.mem_append_right _ hid))
    (x.run b).2 (y.run b').2 (hb.of_sameScopes h.scopes) (hb'.of_sameScopes h.scopes')
    (hopen.of_sameScopes h.scopes) (hopen'.of_sameScopes h.scopes') h.moves.agree
    (h.moves.agree_of hindex)
  rw [run_bind, run_bind, ← h.value]
  exact ⟨h.moves.trans h'.moves, h'.rooted, h'.rooted',
    (Remembers.of_eq h.scopes.scopeMap).trans h'.remembers⟩

theorem get_bind {f g : Builder → Build α}
    (hf : ∀ b b', .node id ∈ W → AgreeOn W b b' →
      Furnishes W id inner inner' ids (f b) (g b')) :
    Furnishes W id inner inner' ids (get >>= f) (get >>= g) :=
  ⟨fun hid hids b b' hb hb' hopen hopen' hW hindex =>
    (hf b b' hid hW).run hid hids b b' hb hb' hopen hopen' hW hindex⟩

end Furnishes

/-! ## Bodies -/

variable (g : Generics)

/-- A construct gives its names to the scope that was opened for it. -/
theorem fills_bindNames (b : Binder) (hid : .node b.opening.id ∈ W)
    (howner : ∀ name, symbolKey (some b.opening.id) name ∈ W)
    (hids : ∀ id ∈ b.partIds, .node id ∈ W) :
    Fills W Key.index (some b.opening.id) inner inner' (bindNames g inner b)
      (bindNames g inner' b) := by
  have hpattern (pattern : Pattern) (hb : b.partIds = [pattern].flatMap Pattern.ids) :
      ∀ id ∈ pattern.ids, .node id ∈ W :=
    fun id hmem => hids id (by simpa [hb] using hmem)
  cases b with
  | letBind node pattern ty isMutable =>
    exact fills_defineLet howner g ty isMutable hid (hpattern pattern rfl)
  | arm node pattern | forLoop node pattern =>
    exact fills_definePattern howner g false none node.span (hpattern pattern rfl)
  | lambda node params isAsync => exact fills_defineLambdaParams howner g node.span hids
  | catchClause node name ty => exact fills_defineException howner g name ty hid
  | concurrent node bindings => exact fills_defineConcurrent howner bindings

/-- The walk along a route depends on the route and the declared types, wherever its scopes are. -/
theorem route_walks : Route.Induction
    (fun e => ∀ g scope scope', Walks W e.ids (visitExpr g scope e) (visitExpr g scope' e))
    (fun b => ∀ g scope scope' kind,
      Walks W b.ids (visitBlock g scope kind b) (visitBlock g scope' kind b))
    (fun r => ∀ g scope scope', Walks W r.ids (visitRoute g scope r) (visitRoute g scope' r)) where
  ofExpr e hroute g scope scope' := by
    rw [visitExpr_eq, visitExpr_eq]
    exact ((Walks.visit _ _).bind fun _ _ => hroute g scope scope').mono e.ids_route_subperm.subset
  ofBlock b hroute g scope scope' kind := by
    rw [visitBlock_eq, visitBlock_eq]
    exact ((Walks.visit _ _).bind fun _ _ => .opening fun inner inner' =>
      .of_walks (hroute g inner inner')).mono b.ids_route_subperm.subset
  done _ _ _ := .pure _ _
  expr _ e rest he hrest g scope scope' :=
    (he g scope scope').bind fun _ _ => hrest g scope scope'
  block kind b rest hb hrest g scope scope' :=
    (hb g scope scope' kind).bind fun _ _ => hrest g scope scope'
  opening b inner rest hinner hrest g scope scope' :=
    .opening fun inside inside' => .fill
      (fun hid howner hids => fills_bindNames g b hid howner hids) fun _ =>
        .of_walks ((hinner g inside inside').bind fun _ _ => hrest g scope scope')
  stmt node value rest hvalue hrest g scope scope' :=
    (hvalue g scope scope').bind fun _ _ => .get_bind fun _ _ _ _ _ => hrest g _ _

/-- The walk through an expression depends on the expression and the declared types, wherever its
scopes are. -/
theorem visitExpr_walks (scope scope' : ScopeId) (e : Expr) :
    Walks W e.ids (visitExpr g scope e) (visitExpr g scope' e) :=
  route_walks.toExpr e g scope scope'

theorem visitBlock_walks (scope scope' : ScopeId) (kind : ScopeKind) (b : Block) :
    Walks W b.ids (visitBlock g scope kind b) (visitBlock g scope' kind b) :=
  route_walks.toBlock b g scope scope' kind

/-! ## Declarations -/

/-- A function gets its parameters from its own signature. -/
theorem insideFunction_furnishes (self : Option Ty) (f : FunctionDecl) (inner inner' : ScopeId) :
    Furnishes W f.node.id inner inner' (f.params.map (fun p => p.node.id) ++ f.body.ids)
      (insideFunction g self f inner) (insideFunction g self f inner') := by
  have hbody : Furnishes W f.node.id inner inner'
      (f.params.map (fun p => p.node.id) ++ f.body.ids)
      (insideFunction g none f inner) (insideFunction g none f inner') := by
    refine .get_bind fun b b' hid hW => ?_
    have hsignature : b.table.functions.get? f.node.id = b'.table.functions.get? f.node.id :=
      congrArg NodeRecord.signature (hW _ hid)
    rw [hsignature]
    exact .fill (fun _ howner hids => fills_defineParams howner f.node.span hids _) fun _ =>
      .of_walks (visitBlock_walks _ inner inner' .block f.body)
  cases self with
  | none => exact hbody
  | some self =>
    have hself (howner : ∀ name, symbolKey (some f.node.id) name ∈ W) :
        Fills W Key.index (some f.node.id) inner inner' (defineSelf inner f.node self)
          (defineSelf inner' f.node self) :=
      (fills_define (howner _) _).bind fun _ => .pure _
    have hall := Furnishes.fill (fun _ howner (_ : ∀ id ∈ [], .node id ∈ W) => hself howner)
      fun _ => hbody
    exact hall

theorem visitFunction_walks (scope scope' : ScopeId) (self : Option Ty) (f : FunctionDecl) :
    Walks W f.ids (visitFunction g scope self f) (visitFunction g scope' self f) :=
  .opening (insideFunction_furnishes g self f)

/-- A function remembers the scope that was opened for it. -/
theorem visitFunction_isSome (scope : ScopeId) (self : Option Ty) (f : FunctionDecl)
    {b : Builder} (hb : b.Rooted) :
    (((visitFunction g scope self f).run b).2.table.scopeMap.get? f.node.id).isSome := by
  rw [visitFunction_eq, run_bind]
  generalize (if self.isSome then ScopeKind.method else .function) = kind
  have hinside := (insideFunction_furnishes g self f ⟨b.table.scopes.size⟩
    ⟨b.table.scopes.size⟩).run (Set.mem_univ _) (fun _ _ => Set.mem_univ _) _ _
    (rooted_enter hb scope kind f.node.id) (rooted_enter hb scope kind f.node.id)
    (receives_enter hb scope kind f.node.id) (receives_enter hb scope kind f.node.id) (.refl _ _)
    (.refl _ _)
  refine hinside.remembers.isSome ?_
  exact congrArg Option.isSome (Table.get?_insert_self b.table.scopeMap f.node.id _)

theorem visitMethods_walks (scope scope' : ScopeId) (self : Ty) (methods : List FunctionDecl) :
    Walks W (methods.flatMap FunctionDecl.ids) (visitMethods g scope self methods)
      (visitMethods g scope' self methods) := by
  induction methods with
  | nil => exact .pure _ _
  | cons f fs ih => exact (visitFunction_walks g scope scope' (some self) f).bind fun _ _ => ih

theorem visitInitializers_walks (scope scope' : ScopeId) (fields : List FieldDecl) :
    Walks W (fields.flatMap FieldDecl.ids) (visitInitializers g scope fields)
      (visitInitializers g scope' fields) := by
  induction fields with
  | nil => exact .pure _ _
  | cons f fs ih =>
    obtain ⟨node, name, ty, isMutable, initializer⟩ := f
    cases initializer with
    | none => exact ih.mono (List.subset_cons_self _ _)
    | some e =>
      exact ((visitExpr_walks g scope scope' e).bind fun _ _ => ih).mono
        (List.subset_cons_self _ _)

/-- A class reads its own declared type, and the walk sees all of its fields and methods. -/
theorem visitClass_walks (c : ClassDecl) :
    Walks W (Decl.ids (.classLike c)) (visitClass c) (visitClass c) := by
  unfold visitClass
  refine .get_bind fun b b' hids _ hindex => ?_
  have hself : b.table.decls.get? c.name = b'.table.decls.get? c.name := hindex.alike.get? c.name
  have hfields : ∀ f ∈ c.fields, .node f.node.id ∈ W := fun f hf =>
    hids _ (List.mem_cons_of_mem _ (List.mem_append_left _
      (List.mem_flatMap.2 ⟨f, hf, List.mem_cons_self⟩)))
  have hmethods : ∀ f ∈ c.methods, .node f.node.id ∈ W := fun f hf =>
    hids _ (List.mem_cons_of_mem _ (List.mem_append_right _
      (List.mem_flatMap.2 ⟨f, hf, List.mem_cons_self⟩)))
  dsimp only
  rw [typeGenerics_congr hself, selfType_congr hself]
  exact .mono (.opening fun inner inner' => .fill
    (fun _ howner (_ : ∀ id ∈ [], .node id ∈ W) => fills_defineFields howner hfields) fun _ => .fill
      (fun _ howner (_ : ∀ id ∈ [], .node id ∈ W) => fills_defineMethods howner hmethods) fun _ =>
        .of_walks ((visitInitializers_walks _ inner inner' c.fields).bind fun _ _ =>
          visitMethods_walks _ inner inner' _ c.methods)) (List.Subset.refl _)

theorem visitStruct_walks (s : StructDecl) :
    Walks W (s.node.id :: s.fields.flatMap FieldDecl.ids) (visitStruct s) (visitStruct s) := by
  unfold visitStruct
  refine .get_bind fun b b' _ _ hindex => ?_
  rw [typeGenerics_congr (hindex.alike.get? s.name)]
  exact (visitInitializers_walks _ .global .global s.fields).mono (List.subset_cons_self _ _)

/-- The walk through an implementation reads what the implementation declared before. -/
theorem visitImpl_walks (i : ImplDecl) :
    Walks W (Decl.ids (.impl i)) (visitImpl i) (visitImpl i) := by
  unfold visitImpl
  refine .get_bind fun b b' hids hW _ => ?_
  have himpl : b.impls.find? (fun impl => impl.origin = i.node.id) =
      b'.impls.find? fun impl => impl.origin = i.node.id :=
    congrArg NodeRecord.impl? (hW _ (hids _ List.mem_cons_self))
  rw [himpl]
  exact (visitMethods_walks _ .global .global _ i.methods).mono (List.subset_cons_self _ _)

theorem remember_walks (hglobal : ∀ name, .global name ∈ W) (id : NodeId) :
    Walks W [id]
      (modifyTable fun table => { table with scopeMap := table.scopeMap.insert id .global })
      (modifyTable fun table => { table with scopeMap := table.scopeMap.insert id .global }) := by
  refine ⟨fun hids b b' hb hb' hW _ => ⟨?_, rooted_remember hb id, rooted_remember hb' id,
    remembers_remember W hglobal b id⟩⟩
  exact (sets_remember b id).moves (sets_remember b' id) (hids id List.mem_cons_self) hW
    (logs_nothing b b')

/-- The walk through a statement of the script gives its names to the global scope. -/
theorem visitScript_walks (hglobal : ∀ name, .global name ∈ W) (s : Stmt) :
    Walks W (Stmt.idsAll [s]) (visitScript s) (visitScript s) := by
  cases s with
  | letBind node pattern ty isMutable value =>
    refine .mono ((visitExpr_walks {} .global .global value).bind fun _ _ =>
      (remember_walks hglobal node.id).bind fun _ _ => .of_fills
        fun (hids : ∀ id ∈ node.id :: pattern.ids, _) =>
          fills_defineLet hglobal {} ty isMutable (hids _ List.mem_cons_self)
            fun id hid => hids id (List.mem_cons_of_mem _ hid)) ?_
    simp only [Stmt.idsAll, List.append_nil]
    grind
  | expr node value =>
    exact (visitExpr_walks {} .global .global value).mono
      (List.subset_cons_of_subset _ (List.subset_append_left value.ids []))

/-- The walk through a declaration. That of a statement of the script works on global names. -/
theorem visitDecl_walks (d : Decl) (hglobal : d.isScript = true → ∀ name, .global name ∈ W) :
    Walks W d.ids (visitDecl d) (visitDecl d) := by
  cases d with
  | function f => exact visitFunction_walks {} .global .global none f
  | classLike c => exact visitClass_walks c
  | struct s => exact visitStruct_walks s
  | spark s => exact visitStruct_walks s
  | data d | trait t | interface t => exact (Walks.pure _ _).mono (List.nil_subset _)
  | impl i => exact visitImpl_walks i
  | script s => exact visitScript_walks (hglobal rfl) s

end Build

end UnitAnalysis

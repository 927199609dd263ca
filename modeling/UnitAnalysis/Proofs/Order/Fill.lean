import UnitAnalysis.Proofs.Declared.Alike
import UnitAnalysis.Proofs.Order.View
import UnitAnalysis.Proofs.Symbols.Define

/-!
# Steps that open no scope

Two runs of the same step, from two constructions. `Build.Fills` says that a step works on the keys
`W`, reads the keys `R` beside them and gives names to one scope: the global one, or the one that a
node opened. From constructions that agree on these keys the two runs do the same, although the
scope that receives names may have different numbers in them.
-/

set_option autoImplicit false

namespace UnitAnalysis

namespace Builder

/-- Names go to a scope: the global one, or the one that a node opened and that no other node has.
-/
structure Receives (owner : Option NodeId) (scope : ScopeId) (b : Builder) : Prop where
  inside : scope.index < b.table.scopes.size
  isGlobal : owner = none ↔ scope = .global
  opened : ∀ id, owner = some id → b.table.scopeMap.get? id = some scope
  alone : ∀ id, owner = some id → ∀ other, b.table.scopeMap.get? other = some scope → other = id

/-- No scope was opened between two states. -/
structure SameScopes (b c : Builder) : Prop where
  scopeMap : c.table.scopeMap = b.table.scopeMap
  size : c.table.scopes.size = b.table.scopes.size

theorem SameScopes.trans {b c d : Builder} (h : SameScopes b c) (h' : SameScopes c d) :
    SameScopes b d :=
  ⟨h'.scopeMap.trans h.scopeMap, h'.size.trans h.size⟩

theorem Receives.of_sameScopes {owner : Option NodeId} {scope : ScopeId} {b c : Builder}
    (h : Receives owner scope b) (hs : SameScopes b c) : Receives owner scope c where
  inside := hs.size ▸ h.inside
  isGlobal := h.isGlobal
  opened := hs.scopeMap ▸ h.opened
  alone := hs.scopeMap ▸ h.alone

/-- The table, the names that were lost and the way of the walk are not logged. -/
theorem logs_nothing (b b' : Builder) {t t' : SymbolTable} {shadowed shadowed' : List NodeId}
    {visits visits' : Array Visit} :
    ∃ found traits impls, Logs found traits impls b { b with table := t, shadowed, visits } ∧
      Logs found traits impls b'
        { b' with table := t', shadowed := shadowed', visits := visits' } :=
  ⟨[], [], [], ⟨(List.append_nil _).symm, (List.append_nil _).symm, (List.append_nil _).symm⟩,
    (List.append_nil _).symm, (List.append_nil _).symm, (List.append_nil _).symm⟩

/-- Two runs came out with the same value and did the same, without opening a scope. -/
structure Filled {α : Type} (W : Set Key) (b b' : Builder) (r r' : α × Builder) : Prop where
  value : r.1 = r'.1
  moves : Moves W b b' r.2 r'.2
  scopes : SameScopes b r.2
  scopes' : SameScopes b' r'.2

/-! ## What single changes show -/

section Sets

variable (b : Builder)

theorem sets_annotate (id : NodeId) (t : Ty) :
    Sets (.node id) (fun r => { r with annotation := some t }) b
      { b with table := { b.table with annotations := b.table.annotations.insert id t } } where
  self := congrArg (fun a => { b.nodeRecord id with annotation := a }) (Table.get?_insert_self ..)
  other j hj := by
    cases j with
    | node other =>
      have hne : id ≠ other := fun heq => hj (heq ▸ rfl)
      exact congrArg (fun a => { b.nodeRecord other with annotation := a })
        (Table.get?_insert_of_ne _ hne _)
    | _ => rfl

theorem sets_recordSignature (s : Signature) :
    Sets (.node s.origin) (fun r => { r with signature := some s }) b
      { b with table := { b.table with functions := b.table.functions.insert s.origin s } } where
  self := congrArg (fun a => { b.nodeRecord s.origin with signature := a })
    (Table.get?_insert_self ..)
  other j hj := by
    cases j with
    | node other =>
      have hne : s.origin ≠ other := fun heq => hj (heq ▸ rfl)
      exact congrArg (fun a => { b.nodeRecord other with signature := a })
        (Table.get?_insert_of_ne _ hne _)
    | _ => rfl

variable {b} {scope : ScopeId}

/-- What is found after a symbol went to a scope. -/
theorem lookupLocal_insert (a : Arena) (symbol : Symbol) (other : ScopeId) (name : String)
    (hscope : scope.index < a.size) :
    (a.modifySymbols scope fun t => t.insert symbol.name symbol).lookupLocal other name =
      if other = scope ∧ name = symbol.name then some symbol else a.lookupLocal other name := by
  rw [Arena.lookupLocal_modifySymbols]
  by_cases heq : other = scope
  · subst heq
    have hget : ∃ s, a.get? other = some s := ⟨_, Array.getElem?_eq_getElem hscope⟩
    obtain ⟨s, hs⟩ := hget
    by_cases hname : name = symbol.name
    · simp [hs, hname]
    · simp [hs, hname, Arena.lookupLocal, Table.get?_insert_of_ne _ (Ne.symm hname)]
  · simp [heq]

/-- Other scopes are shown for one node, when only the symbols of that node change and the global
symbols stay. -/
theorem sets_scopes (b : Builder) {id : NodeId} (a : Arena) (m : Table NodeId ScopeId)
    (f : (String → Option Symbol) → String → Option Symbol)
    (hself : SymbolTable.symbolOf { b.table with scopes := a, scopeMap := m } id =
      f (b.table.symbolOf id))
    (hother : ∀ other, other ≠ id →
      SymbolTable.symbolOf { b.table with scopes := a, scopeMap := m } other =
        b.table.symbolOf other)
    (hglobal : ∀ name, a.lookupLocal .global name = b.table.scopes.lookupLocal .global name) :
    Sets (.node id) (fun r => { r with symbols := f r.symbols }) b
      { b with table := { b.table with scopes := a, scopeMap := m } } where
  self := congrArg (fun symbols => { b.nodeRecord id with symbols }) hself
  other j hj := by
    cases j with
    | node other =>
      have hne : other ≠ id := fun heq => hj (heq ▸ rfl)
      exact congrArg (fun symbols => { b.nodeRecord other with symbols }) (hother other hne)
    | global name => exact congrArg (fun symbol => (symbol, _)) (hglobal name)
    | _ => rfl

/-- A symbol that goes to the scope of a node is shown for the node. -/
theorem sets_defineLocal {id : NodeId} (h : b.Receives (some id) scope) (symbol : Symbol) :
    Sets (.node id)
      (fun r => { r with symbols := fun name =>
        if name = symbol.name then some symbol else r.symbols name }) b
      { b with table := { b.table with
        scopes := b.table.scopes.modifySymbols scope fun t => t.insert symbol.name symbol } } := by
  have hne : scope ≠ .global := fun heq => Option.some_ne_none id (h.isGlobal.2 heq)
  refine sets_scopes b _ b.table.scopeMap
    (fun symbols name => if name = symbol.name then some symbol else symbols name) ?_
    (fun other hother => ?_) fun name => ?_
  · funext name
    simp [SymbolTable.symbolOf, h.opened id rfl, hne, lookupLocal_insert _ _ _ _ h.inside]
  · funext name
    unfold SymbolTable.symbolOf
    cases hinner : b.table.scopeMap.get? other with
    | none => rfl
    | some inner =>
      have hscope : inner ≠ scope := by
        rintro rfl
        exact hother (h.alone id rfl other hinner)
      simp [lookupLocal_insert _ _ _ _ h.inside, hscope]
  · rw [lookupLocal_insert _ _ _ _ h.inside, if_neg fun hand => hne hand.1.symm]

/-- A symbol that goes to the global scope is shown under its name. -/
theorem sets_defineGlobal (h : b.Receives none scope) (symbol : Symbol) :
    Sets (.global symbol.name) (fun v => (some symbol, v.2)) b
      { b with table := { b.table with
        scopes := b.table.scopes.modifySymbols scope fun t => t.insert symbol.name symbol } } := by
  have hscope : scope = .global := h.isGlobal.1 rfl
  subst hscope
  refine ⟨?_, fun j hj => ?_⟩
  · change (Arena.lookupLocal _ _ _, _) = _
    rw [lookupLocal_insert _ _ _ _ h.inside, if_pos ⟨rfl, rfl⟩]
    rfl
  · cases j with
    | node other =>
      change Builder.nodeRecord _ other = b.nodeRecord other
      unfold nodeRecord
      congr 1
      funext name
      unfold SymbolTable.symbolOf
      cases b.table.scopeMap.get? other with
      | none => rfl
      | some inner =>
        simp only [lookupLocal_insert _ _ _ _ h.inside]
        by_cases hinner : inner = .global <;> simp [hinner]
    | global name =>
      have hne : name ≠ symbol.name := fun heq => hj (heq ▸ rfl)
      change (Arena.lookupLocal _ _ _, _) = (b.table.scopes.lookupLocal .global name, _)
      rw [lookupLocal_insert _ _ _ _ h.inside, if_neg fun hand => hne hand.2]
    | _ => rfl

/-- Changing a declared type changes what is shown for its name, and declares nothing. -/
theorem sets_modifyType (b : Builder) (name : String) (f : DeclaredType → DeclaredType) :
    Sets (.type name) (fun v => (v.1.map f, v.2)) b
      { b with table := { b.table with decls := b.table.decls.modify name f } } := by
  have hget : ∀ other, (b.table.decls.modify name f).get? other =
      if name = other then (b.table.decls.get? other).map f else b.table.decls.get? other :=
    fun other => Table.get?_modify _ name other f
  refine ⟨?_, fun j hj => ?_⟩
  · change (DeclIndex.get? _ name, _) = ((b.table.decls.get? name).map f, _)
    rw [hget, if_pos rfl]
    rfl
  · cases j with
    | type other =>
      have hne : name ≠ other := fun heq => hj (heq ▸ rfl)
      change (DeclIndex.get? _ other, _) = (b.table.decls.get? other, _)
      rw [hget, if_neg hne]
      rfl
    | declared other =>
      change (DeclIndex.get? _ other).isSome = (b.table.decls.get? other).isSome
      rw [hget]
      split <;> simp
    | _ => rfl

theorem sets_insertVariant (b : Builder) (v : Variant) :
    Sets (.type v.name) (fun entry => (entry.1, some v)) b
      { b with table := { b.table with decls :=
        { b.table.decls with variants := b.table.decls.variants.insert v.name v } } } := by
  refine ⟨?_, fun j hj => ?_⟩
  · change (b.table.decls.get? v.name, Table.get? _ v.name) = _
    rw [Table.get?_insert_self]
    rfl
  · cases j with
    | type other =>
      have hne : v.name ≠ other := fun heq => hj (heq ▸ rfl)
      change (b.table.decls.get? other, Table.get? _ other) = (b.table.decls.get? other, _)
      rw [Table.get?_insert_of_ne _ hne]
      rfl
    | _ => rfl

end Sets

/-- What is shown depends on the table, on the declarations without a name and on the
implementations. -/
theorem view_congr {b c : Builder} (htable : c.table = b.table) (hshadowed : c.shadowed = b.shadowed)
    (himpls : c.impls = b.impls) (k : Key) : c.view k = b.view k := by
  cases k <;> simp only [view, nodeRecord, htable, hshadowed, himpls] <;> rfl

/-- The key under which the symbol of a name is shown. -/
def symbolKey (owner : Option NodeId) (name : String) : Key :=
  match owner with
  | none => .global name
  | some id => .node id

/-- Constructions that agree on a name find the same in the scopes that receive it. -/
theorem lookupLocal_eq_of_agree {W : Set Key} {owner : Option NodeId} {scope scope' : ScopeId}
    {b b' : Builder} (hb : b.Receives owner scope) (hb' : b'.Receives owner scope')
    (hW : AgreeOn W b b') {name : String} (hname : symbolKey owner name ∈ W) :
    b.table.scopes.lookupLocal scope name = b'.table.scopes.lookupLocal scope' name := by
  cases owner with
  | none =>
    rw [hb.isGlobal.1 rfl, hb'.isGlobal.1 rfl]
    exact congrArg Prod.fst (hW _ hname)
  | some id =>
    have hsymbol : ∀ {b : Builder} {scope : ScopeId}, b.Receives (some id) scope →
        (b.nodeRecord id).symbols name = b.table.scopes.lookupLocal scope name := by
      intro b scope h
      have hne : scope ≠ .global := fun heq => Option.some_ne_none id (h.isGlobal.2 heq)
      change b.table.symbolOf id name = _
      simp only [SymbolTable.symbolOf, h.opened id rfl, if_neg hne]
    rw [← hsymbol hb, ← hsymbol hb']
    exact congrFun (congrArg NodeRecord.symbols (hW _ hname)) name

end Builder

/-! ## Steps -/

namespace Build

open Builder

/-- A step works on the keys `W`, reads the keys `R` and gives names to one scope. The two runs are
in `scope` and `scope'`. -/
structure Fills (W R : Set Key) (owner : Option NodeId) (scope scope' : ScopeId) {α : Type}
    (x y : Build α) : Prop where
  run : ∀ b b' : Builder, b.Receives owner scope → b'.Receives owner scope' → AgreeOn W b b' →
    AgreeOn R b b' → Filled W b b' (x.run b) (y.run b')

variable {W R : Set Key} {owner : Option NodeId} {scope scope' : ScopeId} {α β : Type}

namespace Fills

theorem pure (a : α) : Fills W R owner scope scope' (Pure.pure a) (Pure.pure a) :=
  ⟨fun _ _ _ _ hW _ => ⟨rfl, .refl hW, ⟨rfl, rfl⟩, rfl, rfl⟩⟩

theorem bind {x y : Build α} {f g : α → Build β} (hx : Fills W R owner scope scope' x y)
    (hf : ∀ a, Fills W R owner scope scope' (f a) (g a)) :
    Fills W R owner scope scope' (x >>= f) (y >>= g) := by
  refine ⟨fun b b' hb hb' hW hR => ?_⟩
  have h := hx.run b b' hb hb' hW hR
  have h' := (hf (x.run b).1).run (x.run b).2 (y.run b').2 (hb.of_sameScopes h.scopes)
    (hb'.of_sameScopes h.scopes') h.moves.agree (h.moves.agree_of hR)
  rw [run_bind, run_bind, ← h.value]
  exact ⟨h'.value, h.moves.trans h'.moves, h.scopes.trans h'.scopes, h.scopes'.trans h'.scopes'⟩

/-- A step that looks at the construction first, and sees only what both constructions agree on. -/
theorem get_bind {f g : Builder → Build α}
    (hf : ∀ b b', AgreeOn W b b' → AgreeOn R b b' → Fills W R owner scope scope' (f b) (g b')) :
    Fills W R owner scope scope' (get >>= f) (get >>= g) :=
  ⟨fun b b' hb hb' hW hR => (hf b b' hW hR).run b b' hb hb' hW hR⟩

theorem modifyTable {f : SymbolTable → SymbolTable} {k : Key} {u : k.Value → k.Value}
    (hset : ∀ b : Builder, Sets k u b { b with table := f b.table }) (hk : k ∈ W)
    (hmap : ∀ t, (f t).scopeMap = t.scopeMap) (hsize : ∀ t, (f t).scopes.size = t.scopes.size) :
    Fills W R owner scope scope' (Build.modifyTable f) (Build.modifyTable f) :=
  ⟨fun b b' _ _ hW _ => ⟨rfl, (hset b).moves (hset b') hk hW (logs_nothing b b'),
    ⟨hmap _, hsize _⟩, hmap _, hsize _⟩⟩

end Fills

/-- A step that gives names to the global scope, if to any. -/
abbrev FillsGlobal (W R : Set Key) (x : Build α) : Prop :=
  Fills W R none .global .global x x

theorem fills_report (found : List Finding) :
    Fills W R owner scope scope' (report found) (report found) := by
  refine ⟨fun b b' _ _ hW _ => ⟨rfl, ?_, ⟨rfl, rfl⟩, rfl, rfl⟩⟩
  refine .of_view (view_congr rfl rfl rfl) (view_congr rfl rfl rfl) hW ⟨found, [], [], ?_, ?_⟩
  · exact ⟨rfl, (List.append_nil _).symm, (List.append_nil _).symm⟩
  · exact ⟨rfl, (List.append_nil _).symm, (List.append_nil _).symm⟩

theorem fills_visitAll (vs vs' : List Visit) :
    Fills W R owner scope scope' (visitAll vs) (visitAll vs') := by
  refine ⟨fun b b' _ _ hW _ => ⟨rfl, ?_, ⟨rfl, rfl⟩, rfl, rfl⟩⟩
  exact .of_view (view_congr rfl rfl rfl) (view_congr rfl rfl rfl) hW (logs_nothing b b')

theorem fills_annotate {id : NodeId} (hid : .node id ∈ W) (t : Ty) :
    Fills W R owner scope scope' (annotate id t) (annotate id t) :=
  .modifyTable (fun b => sets_annotate b id t) hid (fun _ => rfl) fun _ => rfl

theorem fills_recordSignature {s : Signature} (hid : .node s.origin ∈ W) :
    Fills W R owner scope scope' (recordSignature s) (recordSignature s) :=
  .modifyTable (fun b => sets_recordSignature b s) hid (fun _ => rfl) fun _ => rfl

variable {symbol : Symbol}

theorem tryDefine_run_of_none {b : Builder}
    (h : b.table.scopes.lookupLocal scope symbol.name = none) :
    (tryDefine scope symbol).run b = (.ok (), { b with table := { b.table with
      scopes := b.table.scopes.modifySymbols scope fun t => t.insert symbol.name symbol } }) :=
  tryDefine_run_of_ok (by simp only [Arena.define, h])

theorem tryDefine_run_of_some {b : Builder} {symbol first : Symbol}
    (h : b.table.scopes.lookupLocal scope symbol.name = some first) :
    (tryDefine scope symbol).run b = (.error (.redefinition symbol.name first.span), b) :=
  tryDefine_run_of_error (by simp only [Arena.define, h])

theorem define_run_of_none {b : Builder} {site : Span}
    (h : b.table.scopes.lookupLocal scope symbol.name = none) :
    (define scope symbol site).run b = (true, { b with table := { b.table with
      scopes := b.table.scopes.modifySymbols scope fun t => t.insert symbol.name symbol } }) := by
  rw [define, run_bind, tryDefine_run_of_none h]
  rfl

theorem define_run_of_some {b : Builder} {symbol first : Symbol} {site : Span}
    (h : b.table.scopes.lookupLocal scope symbol.name = some first) :
    (define scope symbol site).run b = (false, { b with
      findings := b.findings ++ [⟨.duplicateDefinition symbol.name first.span, site⟩] }) := by
  rw [define, run_bind, tryDefine_run_of_some h]
  rfl

theorem fills_tryDefine (hname : symbolKey owner symbol.name ∈ W) :
    Fills W R owner scope scope' (tryDefine scope symbol) (tryDefine scope' symbol) := by
  refine ⟨fun b b' hb hb' hW _ => ?_⟩
  have hlookup := lookupLocal_eq_of_agree hb hb' hW hname
  cases hfirst : b.table.scopes.lookupLocal scope symbol.name with
  | some first =>
    rw [tryDefine_run_of_some hfirst, tryDefine_run_of_some (hlookup ▸ hfirst)]
    exact ⟨rfl, .refl hW, ⟨rfl, rfl⟩, rfl, rfl⟩
  | none =>
    rw [tryDefine_run_of_none hfirst, tryDefine_run_of_none (hlookup ▸ hfirst)]
    refine ⟨rfl, ?_, ⟨rfl, Array.size_modify⟩, rfl, Array.size_modify⟩
    cases owner with
    | none =>
      exact (sets_defineGlobal hb symbol).moves (sets_defineGlobal hb' symbol) hname hW
        (logs_nothing b b')
    | some id =>
      exact (sets_defineLocal hb symbol).moves (sets_defineLocal hb' symbol) hname hW
        (logs_nothing b b')

theorem fills_define (hname : symbolKey owner symbol.name ∈ W) (site : Span) :
    Fills W R owner scope scope' (define scope symbol site) (define scope' symbol site) := by
  unfold define
  refine (fills_tryDefine hname).bind fun result => ?_
  match result with
  | .ok () => exact .pure true
  | .error (.redefinition name first) => exact (fills_report _).bind fun _ => .pure false
  | .error .leftGlobal => exact .pure false

/-! ## Written types -/

section Resolve

variable (hR : ∀ name, .declared name ∈ R)

include hR

theorem fills_resolve (g : Generics) (e : TypeExpr) :
    Fills W R owner scope scope' (resolve g e) (resolve g e) := by
  refine .get_bind fun b b' _ hagree => ?_
  rw [TypeExpr.resolve_congr (fun name => hagree _ (hR name)) g e]
  exact (fills_report _).bind fun _ => .pure _

theorem fills_resolveOption (g : Generics) (e : Option TypeExpr) :
    Fills W R owner scope scope' (resolveOption g e) (resolveOption g e) := by
  cases e with
  | none => exact .pure _
  | some e => exact (fills_resolve hR g e).bind fun _ => .pure _

end Resolve

end Build

end UnitAnalysis

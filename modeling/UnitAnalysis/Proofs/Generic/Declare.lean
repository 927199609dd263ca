import UnitAnalysis.Proofs.Generic.Judgements
import UnitAnalysis.Proofs.Generic.Places
import UnitAnalysis.Proofs.Scope.Names
import UnitAnalysis.Symbols.Visit

/-!
# Type parameters in a construction

A construction obeys a provenance when every type in it has only the type parameters that may occur
where the type belongs. Scopes are labelled with the type parameters of the function around them.
Here is that the steps of a construction and its first two rounds keep to it. The third round, which
opens the scopes of bodies, comes in the next module.
-/

set_option autoImplicit false

namespace UnitAnalysis

/-! ## What obeys a provenance -/

/-- The type parameters of the function that a symbol stands for. -/
def Symbol.own (functions : Table NodeId Signature) (s : Symbol) : List String :=
  ((s.origin.bind functions.get?).map Signature.own).getD []

/-- A symbol inside a function with the given type parameters obeys a provenance. The type of a
function has the type parameters of that function, unless its name stands for a value. -/
structure Symbol.Obeys (P : Provenance) (functions : Table NodeId Signature) (params : List String)
    (s : Symbol) : Prop where
  value : s.kind ≠ .function → s.ty.Within (params ++ P.free)
  typed : s.kind = .function → s.declaredType.isSome
  function : s.kind = .function → s.ty.Within (s.own functions ++ P.free)
  named : s.kind = .function → s.name ∈ P.named → s.ty.Within P.free

/-- Scopes obey a provenance, with the given type parameters around each of them. -/
structure Arena.Obeys (P : Provenance) (functions : Table NodeId Signature)
    (around : ScopeId → List String) (a : Arena) : Prop where
  symbols : ∀ i name s, a.lookupLocal i name = some s →
    s.name = name ∧ s.Obeys P functions (around i)
  nested : ∀ i, ∀ j ∈ a.enclosing i, j.index < a.size ∧ around j ⊆ around i

/-- A symbol table obeys a provenance, with the given type parameters around each scope. -/
structure SymbolTable.Obeys (P : Provenance) (around : ScopeId → List String) (t : SymbolTable) :
    Prop where
  decls : t.decls.Within P.free
  intrinsics : ∀ name ret, t.intrinsics.get? name = some ret → ret.Within P.free
  functions : ∀ id s, t.functions.get? id = some s → s.own = P.own id ∧ s.Within P.free
  annotations : ∀ id ty, t.annotations.get? id = some ty → ty.Within (P.own id ++ P.free)
  scopes : t.scopes.Obeys P t.functions around
  remembered : ∀ id i, t.scopeMap.get? id = some i → i.index < t.scopes.size ∧ around i = P.own id

/-- A construction obeys a provenance, and the listed scopes lie inside functions with the listed
type parameters. -/
def Builder.Obeys (P : Provenance) (places : List (ScopeId × List String)) (b : Builder) : Prop :=
  (∀ t ∈ b.traits, ∀ m ∈ t.methods, m.Within ("Self" :: P.free)) ∧
    (∀ i ∈ b.impls, i.target.Within P.free ∧ ∀ m ∈ i.methods, m.Within P.free) ∧
    ∃ around, b.table.Obeys P around ∧
      ∀ p ∈ places, p.1.index < b.table.scopes.size ∧ around p.1 = p.2

namespace Symbol.Obeys

variable {P : Provenance} {functions : Table NodeId Signature} {params : List String} {s : Symbol}

/-- A symbol that is no function owes only the bound on its type. -/
theorem of_value (hkind : s.kind ≠ .function) (h : s.ty.Within (params ++ P.free)) :
    s.Obeys P functions params :=
  ⟨fun _ => h, fun hf => absurd hf hkind, fun hf => absurd hf hkind, fun hf => absurd hf hkind⟩

/-- A symbol whose type has type parameters that may occur everywhere. -/
theorem of_free (htyped : s.declaredType.isSome) (h : s.ty.Within P.free) :
    s.Obeys P functions params :=
  ⟨fun _ => h.mono (List.subset_append_right _ _), fun _ => htyped,
    fun _ => h.mono (List.subset_append_right _ _), fun _ _ => h⟩

/-- A function keeps its type parameters when a signature is remembered that fits its node. -/
theorem insert (h : s.Obeys P functions params)
    (hfunctions : ∀ id f, functions.get? id = some f → f.own = P.own id) {f : Signature}
    (hf : f.own = P.own f.origin) : s.Obeys P (functions.insert f.origin f) params := by
  refine ⟨h.value, h.typed, fun hkind => (h.function hkind).mono ?_, h.named⟩
  refine List.append_subset.2 ⟨fun name hname => List.mem_append_left _ ?_,
    List.subset_append_right _ _⟩
  unfold Symbol.own at hname ⊢
  cases horigin : s.origin with
  | none =>
    rw [horigin] at hname
    exact hname
  | some id =>
    rw [horigin, Option.bind_some] at hname
    rw [Option.bind_some]
    by_cases hid : f.origin = id
    · subst hid
      rw [Table.get?_insert_self, Option.map_some, Option.getD_some, hf]
      cases hold : functions.get? f.origin with
      | none =>
        rw [hold] at hname
        cases hname
      | some f' =>
        rw [hold] at hname
        rw [← hfunctions f.origin f' hold]
        exact hname
    · rw [Table.get?_insert_of_ne functions hid]
      exact hname

end Symbol.Obeys

/-! ## Scopes -/

namespace Arena

/-- A definition adds its symbol, and nothing else. -/
theorem lookupLocal_of_define {a a' : Arena} {scope i : ScopeId} {symbol s : Symbol} {name : String}
    (h : a.define scope symbol = .ok a') (hs : a'.lookupLocal i name = some s) :
    a.lookupLocal i name = some s ∨ (i = scope ∧ name = symbol.name ∧ s = symbol) := by
  unfold define at h
  split at h
  · cases h
  · cases h
    rw [lookupLocal_modifySymbols] at hs
    split at hs
    · next hi =>
        subst hi
        obtain ⟨scope, hscope, hget⟩ := Option.bind_eq_some_iff.1 hs
        by_cases hname : symbol.name = name
        · subst hname
          rw [Table.get?_insert_self] at hget
          exact .inr ⟨rfl, rfl, (Option.some.inj hget).symm⟩
        · rw [Table.get?_insert_of_ne _ hname] at hget
          refine .inl ?_
          rw [lookupLocal, hscope]
          exact hget
    · exact .inl hs

/-- Only a scope of the arena has symbols. -/
theorem index_lt_of_lookupLocal {a : Arena} {i : ScopeId} {name : String} {s : Symbol}
    (h : a.lookupLocal i name = some s) : i.index < a.size := by
  by_contra hlt
  unfold lookupLocal get? at h
  rw [Array.getElem?_eq_none (Nat.le_of_not_lt hlt)] at h
  cases h

/-- Only a scope of the arena has enclosing scopes. -/
theorem index_lt_of_mem_enclosing {a : Arena} {i j : ScopeId} (h : j ∈ a.enclosing i) :
    i.index < a.size := by
  by_contra hlt
  unfold enclosing get? at h
  rw [Array.getElem?_eq_none (Nat.le_of_not_lt hlt)] at h
  cases h

/-- A scope that is opened has no symbols yet. -/
theorem lookupLocal_of_enter {a : Arena} {parent i : ScopeId} {kind : ScopeKind} {name : String}
    {s : Symbol} (h : (a.enter parent kind).2.lookupLocal i name = some s) :
    a.lookupLocal i name = some s := by
  have hlt := index_lt_of_lookupLocal h
  rw [size_enter] at hlt
  rcases Nat.lt_succ_iff_lt_or_eq.1 hlt with hlt | heq
  · unfold lookupLocal at h ⊢
    rwa [get?_enter_of_lt a parent kind hlt] at h
  · obtain ⟨index⟩ := i
    obtain rfl : index = a.size := heq
    unfold lookupLocal at h
    rw [get?_enter_self] at h
    simp [Table.get?, Table.find] at h

end Arena

namespace SymbolTable.Obeys

variable {P : Provenance} {around : ScopeId → List String} {t : SymbolTable}

variable (h : t.Obeys P around)

include h

/-- Defining an obedient symbol. -/
theorem define {scope : ScopeId} {symbol : Symbol} {scopes : Arena}
    (hsymbol : symbol.Obeys P t.functions (around scope))
    (hdefine : t.scopes.define scope symbol = .ok scopes) :
    SymbolTable.Obeys P around { t with scopes } := by
  have hdefines := Arena.defines_of_define hdefine
  refine ⟨h.decls, h.intrinsics, h.functions, h.annotations,
    ⟨fun i name s hs => ?_, fun i j hj => ?_⟩, fun id i hi => ?_⟩
  · rcases Arena.lookupLocal_of_define hdefine hs with hold | ⟨rfl, rfl, rfl⟩
    · exact h.scopes.symbols i name s hold
    · exact ⟨rfl, hsymbol⟩
  · change j ∈ scopes.enclosing i at hj
    change j.index < scopes.size ∧ _
    rw [hdefines.enclosing] at hj
    rw [hdefines.size]
    exact h.scopes.nested i j hj
  · change i.index < scopes.size ∧ _
    rw [hdefines.size]
    exact h.remembered id i hi

/-- A scope that is opened for a node gets the type parameters of the function around the node. -/
theorem enter {parent : ScopeId} (hparent : parent.index < t.scopes.size)
    {id : NodeId} (hsub : around parent ⊆ P.own id) (kind : ScopeKind) :
    SymbolTable.Obeys P (fun i => if i = ⟨t.scopes.size⟩ then P.own id else around i)
      { t with scopes := (t.scopes.enter parent kind).2
               scopeMap := t.scopeMap.insert id ⟨t.scopes.size⟩ } := by
  have hold {i : ScopeId} (hi : i.index < t.scopes.size) :
      (if i = ⟨t.scopes.size⟩ then P.own id else around i) = around i := by
    refine if_neg ?_
    rintro rfl
    exact Nat.lt_irrefl _ hi
  have hextends := t.scopes.extends_enter parent kind parent
  refine ⟨h.decls, h.intrinsics, h.functions, h.annotations,
    ⟨fun i name s hs => ?_, fun i j hj => ?_⟩, Table.forall_get?_insert ?_ fun other i hi => ?_⟩
  · have hs' := Arena.lookupLocal_of_enter hs
    dsimp only
    rw [hold (Arena.index_lt_of_lookupLocal hs')]
    exact h.scopes.symbols i name s hs'
  · dsimp only at hj ⊢
    rw [Arena.size_enter]
    have hi := Arena.index_lt_of_mem_enclosing hj
    rw [Arena.size_enter] at hi
    rcases Nat.lt_succ_iff_lt_or_eq.1 hi with hlt | heq
    · rw [hextends.enclosing i hlt] at hj
      obtain ⟨hj', hsub'⟩ := h.scopes.nested i j hj
      rw [hold hlt, hold hj']
      exact ⟨Nat.lt_succ_of_lt hj', hsub'⟩
    · -- The new scope lies directly below `parent`.
      obtain ⟨index⟩ := i
      obtain rfl : index = t.scopes.size := heq
      have hbelow : j.index < t.scopes.size ∧ around j ⊆ P.own id := by
        unfold Arena.enclosing at hj
        rw [Arena.get?_enter_self] at hj
        rcases List.mem_cons.1 hj with rfl | hj
        · exact ⟨hparent, hsub⟩
        · obtain ⟨hj', hsub'⟩ := h.scopes.nested parent j hj
          exact ⟨hj', fun name hname => hsub (hsub' hname)⟩
      rw [hold hbelow.1, if_pos rfl]
      exact ⟨Nat.lt_succ_of_lt hbelow.1, hbelow.2⟩
  · rw [Arena.size_enter]
    exact ⟨Nat.lt_succ_self _, if_pos rfl⟩
  · obtain ⟨hlt, howner⟩ := h.remembered other i hi
    rw [Arena.size_enter, hold hlt]
    exact ⟨Nat.lt_succ_of_lt hlt, howner⟩

/-- Annotating a node within its own parameters. -/
theorem annotate {id : NodeId} {ty : Ty} (hty : ty.Within (P.own id ++ P.free)) :
    SymbolTable.Obeys P around { t with annotations := t.annotations.insert id ty } :=
  { h with annotations := Table.forall_get?_insert hty h.annotations }

/-- Recording a signature. -/
theorem recordSignature {s : Signature} (hown : s.own = P.own s.origin) (hs : s.Within P.free) :
    SymbolTable.Obeys P around { t with functions := t.functions.insert s.origin s } := by
  refine ⟨h.decls, h.intrinsics, Table.forall_get?_insert ⟨hown, hs⟩ h.functions, h.annotations,
    ⟨fun i name symbol hsymbol => ?_, h.scopes.nested⟩, h.remembered⟩
  obtain ⟨hname, hobeys⟩ := h.scopes.symbols i name symbol hsymbol
  exact ⟨hname, hobeys.insert (fun id f hf => (h.functions id f hf).1) hown⟩

/-- Replacing the declared types. -/
theorem withDecls {decls : DeclIndex} (hdecls : decls.Within P.free) :
    SymbolTable.Obeys P around { t with decls } :=
  ⟨hdecls, h.intrinsics, h.functions, h.annotations, h.scopes, h.remembered⟩

/-- Adding an intrinsic. -/
theorem withIntrinsic {name : String} {ret : Ty} (hret : ret.Within P.free) :
    SymbolTable.Obeys P around { t with intrinsics := t.intrinsics.insert name ret } :=
  { h with intrinsics := Table.forall_get?_insert hret h.intrinsics }

/-- A name of the script belongs to the global scope. -/
theorem remember {id : NodeId} {scope : ScopeId}
    (hscope : scope.index < t.scopes.size) (hown : around scope = P.own id) :
    SymbolTable.Obeys P around { t with scopeMap := t.scopeMap.insert id scope } :=
  { h with remembered := Table.forall_get?_insert ⟨hscope, hown⟩ h.remembered }

end SymbolTable.Obeys

/-! ## Declared types -/

namespace DeclIndex.Within

variable {allowed : List String} {ix : DeclIndex}

/-- Declaring a type. -/
theorem declare (h : ix.Within allowed) {d : DeclaredType} (hd : d.Within allowed) :
    (ix.declare d).Within allowed := by
  unfold DeclIndex.declare
  split
  · exact h
  · exact ⟨Table.forall_get?_insert hd h.types, h.variants⟩

/-- Changing a type. -/
theorem modify (h : ix.Within allowed) {f : DeclaredType → DeclaredType}
    (hf : ∀ d, d.Within allowed → (f d).Within allowed) (name : String) :
    (ix.modify name f).Within allowed := by
  refine ⟨fun other d hd => ?_, h.variants⟩
  change (ix.types.modify name f).get? other = some d at hd
  rw [Table.get?_modify] at hd
  split at hd
  · obtain ⟨d', hd', rfl⟩ := Option.map_eq_some_iff.1 hd
    exact hf d' (h.types other d' hd')
  · exact h.types other d hd

/-- Adding a variant. -/
theorem addVariant (h : ix.Within allowed) {v : Variant}
    (hv : ∀ f ∈ v.fields, f.ty.Within allowed) : (ix.addVariant v).Within allowed := by
  have htypes := h.modify (f := fun d => { d with variants := d.variants ++ [v.name] })
    (fun d hd => ⟨hd.typeParams, hd.fields, hd.methods⟩) v.parent
  exact ⟨htypes.types, Table.forall_get?_insert hv h.variants⟩

end DeclIndex.Within

namespace Builder.Obeys

variable {P : Provenance} {places : List (ScopeId × List String)} {b : Builder}

variable (h : b.Obeys P places)

include h

/-- Its declared types are in bounds. -/
theorem decls : b.table.decls.Within P.free :=
  let ⟨_, _, _, htable, _⟩ := h
  htable.decls

/-- Its signatures own what their function binds. -/
theorem functions {id : NodeId} {s : Signature}
    (hs : b.table.functions.get? id = some s) : s.own = P.own id ∧ s.Within P.free :=
  let ⟨_, _, _, htable, _⟩ := h
  htable.functions id s hs

/-- Fewer places may be asked for. -/
theorem mono {fewer : List (ScopeId × List String)} (hsub : fewer ⊆ places) : b.Obeys P fewer :=
  let ⟨htraits, himpls, around, htable, hplaces⟩ := h
  ⟨htraits, himpls, around, htable, fun p hp => hplaces p (hsub hp)⟩

/-- The scope that a node of a function opened, or the one around it, lies inside the function. -/
theorem scopeFor {scope : ScopeId} {params : List String}
    (hscope : (scope, params) ∈ places) {id : NodeId} (hown : P.own id = params) :
    b.Obeys P ((b.table.scopeFor id scope, params) :: places) := by
  obtain ⟨htraits, himpls, around, htable, hplaces⟩ := h
  refine ⟨htraits, himpls, around, htable, List.forall_mem_cons.2 ⟨?_, hplaces⟩⟩
  unfold SymbolTable.scopeFor
  cases hget : b.table.scopeMap.get? id with
  | none => exact hplaces _ hscope
  | some i =>
    obtain ⟨hlt, haround⟩ := htable.remembered id i hget
    exact ⟨hlt, haround.trans hown⟩

end Builder.Obeys

/-! ## Steps -/

namespace Build

variable {P : Provenance} {places : List (ScopeId × List String)} {α : Type}

/-- A step keeps to a provenance. -/
abbrev Keeps (P : Provenance) (places : List (ScopeId × List String)) (x : Build α) : Prop :=
  UnitAnalysis.Keeps (Builder.Obeys P places) x

/-- A step keeps to a provenance and gives a value of some kind. -/
abbrev Gives (P : Provenance) (places : List (ScopeId × List String)) (V : α → Prop)
    (x : Build α) : Prop :=
  UnitAnalysis.Gives (Builder.Obeys P places) V x

/-- A step that changes the table alone, and no scope. -/
theorem keeps_modifyTable {f : SymbolTable → SymbolTable}
    (h : ∀ t around, t.Obeys P around →
      (∀ p ∈ places, p.1.index < t.scopes.size ∧ around p.1 = p.2) → (f t).Obeys P around)
    (hsize : ∀ t, (f t).scopes.size = t.scopes.size) : Keeps P places (modifyTable f) := by
  refine Meets.modify fun b ⟨htraits, himpls, around, htable, hplaces⟩ => ?_
  refine ⟨htraits, himpls, around, h b.table around htable hplaces, fun p hp => ?_⟩
  change p.1.index < (f b.table).scopes.size ∧ _
  rw [hsize]
  exact hplaces p hp

/-- Reporting. -/
theorem keeps_report (found : List Finding) : Keeps P places (report found) :=
  Meets.modify fun _ h => h

/-- Logging a visit. -/
theorem keeps_visit (v : Visit) : Keeps P places (visit v) :=
  Meets.modify fun _ h => h

/-- Logging visits. -/
theorem keeps_visitAll (vs : List Visit) : Keeps P places (visitAll vs) :=
  Meets.modify fun _ h => h

/-- Marking a shadowed declaration. -/
theorem keeps_shadow (id : NodeId) : Keeps P places (shadow id) :=
  Meets.modify fun _ h => h

/-- Annotating within a node's own parameters. -/
theorem keeps_annotate {id : NodeId} {t : Ty} (ht : t.Within (P.own id ++ P.free)) :
    Keeps P places (annotate id t) :=
  keeps_modifyTable (fun _ _ h _ => h.annotate ht) fun _ => rfl

variable {params : List String} {scope : ScopeId} {g : Generics} {f : FunctionDecl}

/-- Opening a scope adds a place, which binds what its node does. -/
theorem meets_enter {parent : ScopeId}
    (hparent : (parent, params) ∈ places) {id : NodeId} (hsub : params ⊆ P.own id)
    (kind : ScopeKind) :
    Meets (Builder.Obeys P places) (enter parent kind id)
      fun scope => Builder.Obeys P ((scope, P.own id) :: places) := by
  refine ⟨fun b ⟨htraits, himpls, around, htable, hplaces⟩ => ⟨htraits, himpls, ?_⟩⟩
  obtain ⟨hlt, haround⟩ := hplaces _ hparent
  have hsub' : around parent ⊆ P.own id := haround ▸ hsub
  have henter := htable.enter hlt hsub' kind
  refine ⟨_, henter, List.forall_mem_cons.2 ⟨⟨?_, if_pos rfl⟩, fun p hp => ?_⟩⟩
  · change b.table.scopes.size < (b.table.scopes.enter parent kind).2.size
    rw [Arena.size_enter]
    exact Nat.lt_succ_self _
  · obtain ⟨hp', haround'⟩ := hplaces p hp
    refine ⟨?_, ?_⟩
    · change p.1.index < (b.table.scopes.enter parent kind).2.size
      rw [Arena.size_enter]
      exact Nat.lt_succ_of_lt hp'
    · rw [← haround']
      refine if_neg fun heq => ?_
      rw [heq] at hp'
      exact Nat.lt_irrefl _ hp'

/-- Defining a symbol that obeys the signatures at hand. -/
theorem meets_tryDefine (hscope : (scope, params) ∈ places) (symbol : Symbol) :
    Meets (fun b => symbol.Obeys P b.table.functions params ∧ Builder.Obeys P places b)
      (tryDefine scope symbol) fun _ => Builder.Obeys P places := by
  refine ⟨fun b ⟨hsymbol, htraits, himpls, around, htable, hplaces⟩ => ?_⟩
  obtain ⟨-, haround⟩ := hplaces _ hscope
  cases h : b.table.scopes.define scope symbol with
  | ok scopes =>
    rw [tryDefine_run_of_ok h]
    refine ⟨htraits, himpls, around, htable.define (haround ▸ hsymbol) h, fun p hp => ?_⟩
    change p.1.index < scopes.size ∧ _
    rw [(Arena.defines_of_define h).size]
    exact hplaces p hp
  | error e =>
    rw [tryDefine_run_of_error h]
    exact ⟨htraits, himpls, around, htable, hplaces⟩

/-- The same, with a report of a duplicate. -/
theorem meets_define (hscope : (scope, params) ∈ places) (symbol : Symbol) (site : Span) :
    Meets (fun b => symbol.Obeys P b.table.functions params ∧ Builder.Obeys P places b)
      (define scope symbol site) fun _ => Builder.Obeys P places := by
  refine (meets_tryDefine hscope symbol).bind fun outcome => ?_
  match outcome with
  | .ok () => exact Keeps.pure true
  | .error (.redefinition name first) => exact (keeps_report _).bind fun _ => Keeps.pure false
  | .error .leftGlobal => exact Keeps.pure false

/-- Defining a symbol that obeys a provenance whatever functions there are. -/
theorem keeps_define (hscope : (scope, params) ∈ places)
    {symbol : Symbol} (hsymbol : ∀ functions, symbol.Obeys P functions params) (site : Span) :
    Keeps P places (define scope symbol site) :=
  (meets_define hscope symbol site).mono (fun _ h => ⟨hsymbol _, h⟩) fun _ _ h => h

/-- Defining a symbol that obeys whatever the signatures are. -/
theorem keeps_tryDefine (hscope : (scope, params) ∈ places)
    {symbol : Symbol} (hsymbol : ∀ functions, symbol.Obeys P functions params) :
    Keeps P places (tryDefine scope symbol) :=
  (meets_tryDefine hscope symbol).mono (fun _ h => ⟨hsymbol _, h⟩) fun _ _ h => h

/-! ## Resolving -/

section Resolve

variable {allowed : List String} {g : Generics}

/-- The signature of a method declares its type parameters, and has those in force beside them. -/
theorem gives_methodSignature (hg : g.Within allowed) (m : MethodSig) :
    Gives P places
      (fun s => s.own = m.typeParams.map TypeParam.name ∧ s.Within allowed ∧ s.origin = m.node.id)
      (methodSignature g m) := by
  have hg' : (g.extend m.typeParams).Within (m.typeParams.map TypeParam.name ++ allowed) :=
    (hg.mono (List.subset_append_right _ _)).extend (List.subset_append_left _ _)
  refine (gives_resolveParams keeps_report hg'.resolve m.params).bind fun params hparams =>
    (gives_resolveOption keeps_report hg'.resolve m.returnType).bind fun ret hret => Gives.pure ?_
  have hown := Generics.filterMap_toTypes m.typeParams
  refine ⟨hown, Ty.within_function.2 ⟨fun t ht => ?_, ?_⟩, rfl⟩
  · obtain ⟨p, hp, rfl⟩ := List.mem_map.1 ht
    exact (hparams p hp).mono (by rw [Signature.own, hown]; exact List.Subset.refl _)
  · cases ret with
    | none => exact Ty.within_prim _
    | some t => exact (hret t rfl).mono (by rw [Signature.own, hown]; exact List.Subset.refl _)

/-- Method signatures of a trait. -/
theorem gives_methodSignatures (hg : g.Within allowed) (ms : List MethodSig) :
    Gives P places (fun ss => ∀ s ∈ ss, s.Within allowed) (methodSignatures g ms) := by
  induction ms with
  | nil => exact Gives.pure (by simp)
  | cons m ms ih =>
    exact (gives_methodSignature hg m).bind fun s hs => ih.bind fun ss hss =>
      Gives.pure (List.forall_mem_cons.2 ⟨hs.2.1, hss⟩)

end Resolve

/-! ## The first round -/

/-- Asking for a trait. -/
theorem keeps_isGlobalTrait (name : String) : Keeps P places (isGlobalTrait name) := by
  refine Keeps.look fun b _ => ?_
  cases b.table.scopes.lookupLocal .global name with
  | none => exact Keeps.pure _
  | some s => exact Keeps.pure _

variable (hglobal : (ScopeId.global, []) ∈ places)

include hglobal

/-- The head of a type. -/
theorem keeps_declareHead {h : TypeHead} (hparams : h.typeParams.map TypeParam.name ⊆ P.free) :
    Keeps P places (declareHead h) := by
  have htypes := Generics.within_toTypes hparams
  let d : DeclaredType :=
    { name := h.name, kind := h.kind, typeParams := Generics.toTypes h.typeParams,
      span := h.node.span }
  have hd : d.Within P.free := by
    refine ⟨htypes, by simp [d], fun name s hs => ?_⟩
    simp [d, Table.get?, Table.find] at hs
  refine Keeps.bind (keeps_isGlobalTrait h.name) fun isTrait => ?_
  split
  · exact keeps_shadow _
  · refine Keeps.bind (keeps_define hglobal (fun _ => .of_free rfl hd.selfType) _) fun isNew => ?_
    split
    · exact keeps_modifyTable (fun _ _ ht _ => ht.withDecls (ht.decls.declare hd)) fun _ => rfl
    · exact keeps_shadow _

/-- A declaration in the first round. -/
theorem keeps_declareType {d : Decl} (hd : P.CoversDecl d) : Keeps P places (declareType d) := by
  have hparams := hd.typeParams
  cases d with
  | function _ | impl _ | script _ => exact Keeps.pure _
  | _ => exact keeps_declareHead hglobal hparams

/-- One intrinsic. -/
theorem keeps_defineIntrinsic (name : String) {ret : Ty} (hret : ret.Within P.free) :
    Keeps P places (defineIntrinsic name ret) := by
  have hsymbol : (Ty.function [] ret).Within P.free := Ty.within_function.2 ⟨by simp, hret⟩
  refine Keeps.bind (keeps_tryDefine hglobal fun _ => .of_free rfl hsymbol) fun outcome => ?_
  cases outcome with
  | ok _ => exact keeps_modifyTable (fun _ _ ht _ => ht.withIntrinsic hret) fun _ => rfl
  | error _ => exact Keeps.pure _

/-- All intrinsics. -/
theorem keeps_seedIntrinsics (extra : List (String × TypeExpr)) :
    Keeps P places (seedIntrinsics extra) := by
  have hextra : Gives P places (fun ts => ∀ p ∈ ts, p.2.Within P.free)
      (resolveIntrinsics extra) := by
    induction extra with
    | nil => exact Gives.pure (by simp)
    | cons p extra ih =>
      exact (gives_resolve keeps_report Generics.within_empty.resolve p.2).bind fun t ht =>
        ih.bind fun ts hts => Gives.pure (List.forall_mem_cons.2 ⟨ht, hts⟩)
  have hdefault : ∀ p ∈ defaultIntrinsics, p.2.Within P.free := by
    simp [defaultIntrinsics, Ty.future]
  refine hextra.bind fun more hmore => Meets.forM fun p hp => ?_
  exact keeps_defineIntrinsic hglobal p.1 (List.forall_mem_append.2 ⟨hdefault, hmore⟩ p hp)

/-! ## The second round -/

omit hglobal

/-- The signature of a function is remembered under its node. -/
theorem meets_functionSignature (hg : g.Within P.free) (hf : P.own f.node.id = f.paramNames) :
    Meets (Builder.Obeys P places) (functionSignature g f) fun s b =>
      (s.own = f.paramNames ∧ s.Within P.free) ∧ b.table.functions.get? f.node.id = some s ∧
        Builder.Obeys P places b := by
  refine (gives_methodSignature hg _).bind fun s ⟨hown, hs, horigin⟩ => ?_
  have hrecord : Meets (Builder.Obeys P places) (recordSignature s) fun _ b =>
      b.table.functions.get? f.node.id = some s ∧ Builder.Obeys P places b := by
    refine Meets.modify fun b ⟨htraits, himpls, around, htable, hplaces⟩ => ?_
    refine ⟨?_, htraits, himpls, around, htable.recordSignature ?_ hs, hplaces⟩
    · rw [← horigin]
      exact Table.get?_insert_self ..
    · rw [horigin, hown]
      exact hf.symm
  exact hrecord.bind fun _ => Meets.pure fun b hb => ⟨⟨hown, hs⟩, hb⟩

/-- A function's signature. -/
theorem gives_functionSignature (hg : g.Within P.free) (hf : P.own f.node.id = f.paramNames) :
    Gives P places (Signature.Within P.free) (functionSignature g f) :=
  (meets_functionSignature hg hf).mono (fun _ h => h) fun _ _ h => ⟨h.1.2, h.2.2⟩

/-- The signatures of functions. -/
theorem gives_functionSignatures (hg : g.Within P.free) {fs : List FunctionDecl}
    (hfs : ∀ f ∈ fs, P.own f.node.id = f.paramNames) :
    Gives P places (fun ss => ∀ s ∈ ss, s.Within P.free) (functionSignatures g fs) := by
  induction fs with
  | nil => exact Gives.pure (by simp)
  | cons f fs ih =>
    obtain ⟨hf, hrest⟩ := List.forall_mem_cons.1 hfs
    exact (gives_functionSignature hg hf).bind fun s hs => (ih hrest).bind fun ss hss =>
      Gives.pure (List.forall_mem_cons.2 ⟨hs, hss⟩)

/-- Resolved fields. -/
theorem gives_fields (hg : g.Within P.free) (owner : String) (isFrozen : Bool)
    (fs : List FieldDecl) :
    Gives P places (fun fields => ∀ f ∈ fields, f.ty.Within P.free)
      (resolveFields owner isFrozen g [] fs) := by
  have hannotate : ∀ id t, t.Within P.free → Keeps P places (annotate id t) := fun _ _ ht =>
    keeps_annotate (ht.mono (List.subset_append_right _ _))
  exact (gives_resolveFields keeps_report hg.resolve hannotate owner isFrozen fs (by simp)).mono
    (fun _ h => h) fun _ _ h => ⟨h.1.1, h.2⟩

/-- Filling in a declared type. -/
theorem keeps_fillType (id : NodeId) (name : String) {f : DeclaredType → DeclaredType}
    (hf : ∀ d, d.Within P.free → (f d).Within P.free) : Keeps P places (fillType id name f) := by
  refine Keeps.bind (Keeps.look fun b _ => Keeps.pure _) fun isLost => ?_
  split
  · exact Keeps.pure _
  · exact keeps_modifyTable (fun _ _ h _ => h.withDecls (h.decls.modify hf name)) fun _ => rfl

/-- The generics inside a type declaration. -/
theorem within_typeGenerics {ix : DeclIndex} (hix : ix.Within P.free) (name : String)
    {params : List TypeParam} (hparams : params.map TypeParam.name ⊆ P.free) :
    (typeGenerics ix name params).Within P.free := by
  have hg : (Generics.extend {} params).Within P.free := Generics.within_empty.extend hparams
  unfold typeGenerics
  split
  · next d hd => exact hg.withAlias (hix.types name d hd).selfType
  · exact hg

/-- The type of `self`. -/
theorem within_selfType {ix : DeclIndex} (hix : ix.Within P.free) (name : String) :
    (selfType ix name).Within P.free := by
  unfold selfType
  split
  · next d hd => exact (hix.types name d hd).selfType
  · exact Ty.within_named _

/-- Classes. -/
theorem keeps_declareClass {c : ClassDecl} (hparams : c.typeParams.map TypeParam.name ⊆ P.free)
    (hmethods : ∀ f ∈ c.methods, P.CoversFunction f) : Keeps P places (declareClass c) := by
  refine Keeps.look fun b hb => ?_
  have hg := within_typeGenerics (hb.decls) c.name hparams
  have hsigned : ∀ f ∈ c.methods, Gives P places (Signature.Within P.free)
      (functionSignature _ f) := fun f hf =>
    gives_functionSignature hg ((hmethods f hf).own f.node.id List.mem_cons_self)
  refine (gives_fields hg c.name false c.fields).bind fun fields hfields => ?_
  refine (gives_collectMethods keeps_report c.name fields hsigned fun name s hs => ?_).bind
    fun methods hmethods => ?_
  · simp [Table.get?, Table.find] at hs
  · exact keeps_fillType _ _ fun d hd => ⟨hd.typeParams, hfields, hmethods⟩

/-- Structs and sparks. -/
theorem keeps_declareStruct (isSpark : Bool) {s : StructDecl}
    (hparams : s.typeParams.map TypeParam.name ⊆ P.free) :
    Keeps P places (declareStruct isSpark s) := by
  refine Keeps.look fun b hb => ?_
  have hg := within_typeGenerics (hb.decls) s.name hparams
  refine (gives_fields hg s.name isSpark s.fields).bind fun fields hfields => ?_
  exact keeps_fillType _ _ fun d hd => ⟨hd.typeParams, hfields, hd.methods⟩

include hglobal in
/-- Variants. -/
theorem keeps_declareVariants (d : DataDecl) (hg : g.Within P.free) {self : Ty}
    (hself : self.Within P.free) (seen : List String) (vs : List VariantDecl) :
    Keeps P places (declareVariants d g self seen vs) := by
  induction vs generalizing seen with
  | nil => exact Keeps.pure _
  | cons v vs ih =>
    unfold declareVariants
    split
    · exact Keeps.bind (keeps_report _) fun _ => ih seen
    · refine (gives_fields hg v.name true v.fields).bind fun fields hfields => ?_
      have hty : (Ty.function (fields.map fun f => f.ty) self).Within P.free := by
        refine Ty.within_function.2 ⟨fun t ht => ?_, hself⟩
        obtain ⟨f, hf, rfl⟩ := List.mem_map.1 ht
        exact hfields f hf
      refine Keeps.bind (keeps_define hglobal (fun _ => .of_free rfl hty) _) fun isDefined => ?_
      refine Keeps.bind (Keeps.look fun b _ => Keeps.pure _) fun isLost => ?_
      split
      · refine Keeps.bind (keeps_modifyTable (fun _ _ h _ => ?_) fun _ => rfl) fun _ =>
          ih (v.name :: seen)
        exact h.withDecls (h.decls.addVariant hfields)
      · exact ih (v.name :: seen)

/-- Traits and interfaces. -/
theorem keeps_declareTrait (isInterface : Bool) {t : TraitDecl}
    (hparams : t.typeParams.map TypeParam.name ⊆ P.free) :
    Keeps P places (declareTrait isInterface t) := by
  have hg : ((Generics.extend {} t.typeParams).withAlias "Self" (.bounded "Self" [t.name])).Within
      ("Self" :: P.free) := by
    refine Generics.Within.withAlias (Generics.within_empty.extend fun name hname => ?_) ?_
    · exact List.mem_cons_of_mem _ (hparams hname)
    · exact (Ty.within_param _ _).2 List.mem_cons_self
  refine (gives_methodSignatures hg t.methods).bind fun methods hmethods => ?_
  refine Meets.modify fun b ⟨htraits, himpls, htable⟩ => ⟨?_, himpls, htable⟩
  exact List.forall_mem_append.2 ⟨htraits, List.forall_mem_singleton.2 hmethods⟩

/-- Implementations. -/
theorem keeps_declareImpl {i : ImplDecl} (hparams : i.typeParams.map TypeParam.name ⊆ P.free)
    (hmethods : ∀ f ∈ i.methods, P.CoversFunction f) : Keeps P places (declareImpl i) := by
  have hg : (Generics.extend {} i.typeParams).Within P.free := Generics.within_empty.extend hparams
  refine (gives_resolve keeps_report hg.resolve i.target).bind fun target htarget => ?_
  refine (gives_resolveAll keeps_report hg.resolve i.traitArgs).bind fun traitArgs _ => ?_
  refine (gives_functionSignatures (hg.withAlias htarget) fun f hf =>
    (hmethods f hf).own f.node.id List.mem_cons_self).bind fun methods hmethods => ?_
  refine Meets.modify fun b ⟨htraits, himpls, htable⟩ => ⟨htraits, ?_, htable⟩
  exact List.forall_mem_append.2 ⟨himpls, List.forall_mem_singleton.2 ⟨htarget, hmethods⟩⟩

/-- The symbol of a function whose signature is remembered. -/
theorem obeys_function {functions : Table NodeId Signature}
    (hf : P.CoversFunction f) {s : Signature} (hown : s.own = f.paramNames) (hs : s.Within P.free)
    (hget : functions.get? f.node.id = some s) (params : List String) {symbol : Symbol}
    (hkind : symbol.kind = .function) (hname : symbol.name = f.name)
    (hty : symbol.declaredType = some s.functionType) (horigin : symbol.origin = some f.node.id) :
    symbol.Obeys P functions params := by
  have hsymbol : symbol.ty = s.functionType := by rw [Symbol.ty, hty, Option.getD_some]
  refine ⟨fun h => absurd hkind h, fun _ => by rw [hty]; rfl, fun _ => ?_, fun _ hnamed => ?_⟩
  · rw [hsymbol, Symbol.own, horigin, Option.bind_some, hget]
    exact hs
  · -- The name stands for a value, so the type parameters of the function may occur everywhere.
    rw [hsymbol]
    refine Ty.Within.mono hs (List.append_subset.2 ⟨?_, List.Subset.refl _⟩)
    rw [hown]
    exact hf.named (hname ▸ hnamed)

include hglobal in
/-- Functions. -/
theorem keeps_declareFunction (hf : P.CoversFunction f) : Keeps P places (declareFunction f) := by
  have hown := hf.own f.node.id List.mem_cons_self
  refine Meets.bind (meets_functionSignature Generics.within_empty hown) fun s => ?_
  refine Meets.bind ((meets_define hglobal _ _).mono ?_ fun _ _ h => h) fun _ => Keeps.pure ()
  rintro b ⟨⟨hs, hwithin⟩, hget, hb⟩
  exact ⟨obeys_function hf hs hwithin hget [] rfl rfl rfl rfl, hb⟩

include hglobal in
/-- The second round keeps to a provenance that fits the declaration. -/
theorem keeps_declareMembers {d : Decl} (hd : P.CoversDecl d) :
    Keeps P places (declareMembers d) := by
  have hparams := hd.typeParams
  have hparts := hd.parts
  cases d with
  | function f => exact keeps_declareFunction hglobal hparts
  | classLike c => exact keeps_declareClass hparams hparts.2.2
  | struct s => exact keeps_declareStruct false hparams
  | spark s => exact keeps_declareStruct true hparams
  | data d =>
    refine Keeps.look fun b hb => ?_
    have hix := hb.decls
    exact keeps_declareVariants hglobal d (within_typeGenerics hix d.name hparams)
      (within_selfType hix d.name) [] d.variants
  | trait t => exact keeps_declareTrait false hparams
  | interface t => exact keeps_declareTrait true hparams
  | impl i => exact keeps_declareImpl hparams hparts
  | script s => exact Keeps.pure ()

end Build

end UnitAnalysis

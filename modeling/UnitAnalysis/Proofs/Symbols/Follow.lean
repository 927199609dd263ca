import Mathlib.Data.List.Perm.Subperm
import UnitAnalysis.Proofs.Symbols.Define
import UnitAnalysis.Proofs.Symbols.Route
import UnitAnalysis.Proofs.Syntax.Inherit

/-!
# What a walk does to a construction

The third round walks through the bodies of a unit and opens a scope for each construct on its way.
`Builder.Follows` says what such a walk does between two states. It leaves the scopes of before
alone, but for the names that it gives to the scope it starts in. It remembers scopes under the
identities that belong to it and under no others. It comes by the listed sites in order, and the
scopes that it opens are those of the listed constructs, one after the other.

The sites are listed under the rules `scopeRules`, which look up the scope of a construct in a
table. At the time of the walk that table is not complete, so a walk is described for every table
that agrees with it on the identities that belong to it. That each construct has a scope of its kind
and with its names holds whatever the identities are, also when two nodes share one and the table
remembers only the later of their scopes; for this it does not matter at which places the sites are
listed.
-/

set_option autoImplicit false

namespace UnitAnalysis

/-! ## Sites and scopes -/

/-- The names that a construct brings into force, given those of patterns. -/
def Opening.names (patternNames : Pattern → List String) : Opening → List String
  | function f isMethod => (if isMethod then ["self"] else []) ++ f.params.map fun p => p.name
  | classBody c => c.fields.map (fun f => f.name) ++ c.methods.map fun f => f.name
  | block _ _ => []
  | letBind _ pattern => patternNames pattern
  | arm _ pattern => patternNames pattern
  | lambda _ params _ => params.map fun p => p.name
  | forLoop _ pattern => patternNames pattern
  | catchClause _ name => [name]
  | concurrent _ bindings => bindings.map fun b => b.name

/-- The calls of a walk on a site. -/
def Site.visits : Site ScopeId → List Visit
  | expr scope e => [⟨.expr, e.id, scope⟩]
  | block scope b => [⟨.block, b.id, scope⟩]
  | pattern scope p => p.visits scope
  | opening _ _ => []

/-- The construct that a site shows, with its place. -/
def Site.opening? {α : Type} : Site α → Option (α × Opening)
  | opening place o => some (place, o)
  | _ => none

/-- The constructs of a list of sites, with their places. -/
def openings {α : Type} (sites : List (Site α)) : List (α × Opening) :=
  sites.filterMap Site.opening?

@[simp] theorem openings_append {α : Type} (sites more : List (Site α)) :
    openings (sites ++ more) = openings sites ++ openings more :=
  List.filterMap_append

theorem mem_openings {α : Type} {sites : List (Site α)} {place : α} {o : Opening} :
    (place, o) ∈ openings sites ↔ .opening place o ∈ sites := by
  unfold openings
  rw [List.mem_filterMap]
  constructor
  · rintro ⟨site, hsite, heq⟩
    cases site with
    | opening place' o' =>
      cases heq
      exact hsite
    | _ => cases heq
  · exact fun h => ⟨_, h, rfl⟩

/-- The constructs of a list of sites. -/
def constructs {α : Type} (sites : List (Site α)) : List Opening :=
  (openings sites).map Prod.snd

theorem constructs_append {α : Type} (sites more : List (Site α)) :
    constructs (sites ++ more) = constructs sites ++ constructs more := by
  unfold constructs
  rw [openings_append, List.map_append]

/-- Lists of the same things have the same constructs, whatever the places are. -/
theorem constructs_eq_of_related {α β : Type} {sites : List (Site α)} {sites' : List (Site β)}
    (h : List.Forall₂ (Site.Related fun _ _ => True) sites sites') :
    constructs sites = constructs sites' := by
  induction h with
  | nil => rfl
  | cons hsite _ ih =>
    cases hsite with
    | opening => exact congrArg (List.cons _) ih
    | _ => exact ih

/-- A scope is of the kind of a construct and has its names. -/
structure Arena.Shows (ix : DeclIndex) (a : Arena) (scope : ScopeId) (o : Opening) : Prop where
  lt_size : scope.index < a.size
  kind : a.kind? scope = some o.kind
  binds : ∀ name, a.Binds scope name ↔ name ∈ o.names (Pattern.defined ix)

/-- A scope is that of a construct, directly below the place of the construct. -/
structure Arena.Holds (ix : DeclIndex) (a : Arena) (scope place : ScopeId) (o : Opening) :
    Prop extends a.Shows ix scope o where
  below : place.index < scope.index
  enclosing : a.enclosing scope = place :: a.enclosing place

section Extends

variable {ix : DeclIndex} {a a' : Arena} {scope place other : ScopeId} {o : Opening}
  {names : List String}

/-- A scope keeps its names while other scopes receive names. -/
theorem Arena.Shows.extends (h : a.Shows ix scope o) (he : Extends other names a a')
    (hne : names ≠ [] → other.index < scope.index) : a'.Shows ix scope o where
  lt_size := Nat.lt_of_lt_of_le h.lt_size he.size
  kind := (he.kind scope h.lt_size).trans h.kind
  binds name := by
    rw [he.binds scope name h.lt_size, h.binds]
    refine or_iff_left ?_
    rintro ⟨rfl, hname⟩
    exact Nat.lt_irrefl _ (hne (List.ne_nil_of_mem hname))

theorem Arena.Holds.extends (h : a.Holds ix scope place o) (he : Extends other names a a')
    (hne : names ≠ [] → other.index < scope.index) : a'.Holds ix scope place o where
  toShows := h.toShows.extends he hne
  below := h.below
  enclosing := by
    rw [he.enclosing scope h.lt_size, he.enclosing place (Nat.lt_trans h.below h.lt_size),
      h.enclosing]

/-- A scope that was opened for a construct and then received its names is that of the construct. -/
theorem Arena.holds_of_enter (hplace : place.index < a.size)
    (h : Extends ⟨a.size⟩ (o.names (Pattern.defined ix)) (a.enter place o.kind).2 a') :
    a'.Holds ix ⟨a.size⟩ place o := by
  have hself := a.get?_enter_self place o.kind
  have hlt : (⟨a.size⟩ : ScopeId).index < (a.enter place o.kind).2.size := by
    rw [size_enter]
    exact Nat.lt_succ_self _
  have hall := (a.extends_enter place o.kind ⟨a.size⟩).trans h
  refine ⟨⟨Nat.lt_of_lt_of_le hlt h.size, ?_, fun name => ?_⟩, hplace, ?_⟩
  · rw [h.kind _ hlt, kind?, hself]
    rfl
  · rw [h.binds _ name hlt, Binds, lookupLocal, hself]
    simp [Table.get?, Table.find]
  · rw [h.enclosing _ hlt, hall.enclosing place hplace, Arena.enclosing, hself]

end Extends

/-! ## Following a list of sites -/

/-- Two tables have the same scopes for some nodes. -/
def Agree (ids : List NodeId) (t t' : SymbolTable) : Prop :=
  ∀ id ∈ ids, t.scopeMap.get? id = t'.scopeMap.get? id

/-- Every remembered scope is there. -/
def SymbolTable.Bounded (t : SymbolTable) : Prop :=
  ∀ id scope, t.scopeMap.get? id = some scope → scope.index < t.scopes.size

/-- A walk came by the sites in order and opened the scopes of their constructs. -/
structure Builder.Traces (table : SymbolTable) (sites : List (Site ScopeId)) (b b' : Builder) :
    Prop where
  visits : b'.visits.toList = b.visits.toList ++ sites.flatMap Site.visits
  size : b'.table.scopes.size = b.table.scopes.size + (openings sites).length
  opened : ∀ n place o, (openings sites)[n]? = some (place, o) →
    table.scopeMap.get? o.id = some ⟨b.table.scopes.size + n⟩ ∧
      b'.table.scopes.Holds b'.table.decls ⟨b.table.scopes.size + n⟩ place o

/-- Scopes were opened for constructs, one after the other. -/
structure Builder.Opens (os : List Opening) (b b' : Builder) : Prop where
  size : b'.table.scopes.size = b.table.scopes.size + os.length
  opened : ∀ n o, os[n]? = some o →
    b'.table.scopes.Shows b'.table.decls ⟨b.table.scopes.size + n⟩ o

/-- What a walk in a scope does, which gives names to that scope and remembers scopes under the
given identities. -/
structure Builder.Follows (scope : ScopeId) (names : List String) (ids : List NodeId)
    (sites : SymbolTable → List (Site ScopeId)) (b b' : Builder) : Prop where
  scopes : Arena.Extends scope names b.table.scopes b'.table.scopes
  decls : b'.table.decls = b.table.decls
  placement : placement b'.findings = placement b.findings
  scopeMap : ∀ id, id ∉ ids → b'.table.scopeMap.get? id = b.table.scopeMap.get? id
  bounded : b.table.Bounded → b'.table.Bounded
  declarations : b'.declarations = b.declarations
  opens : ∀ table, Opens (constructs (sites table)) b b'
  traces : ids.Nodup → ∀ table, Agree ids table b'.table → Traces table (sites table) b b'

namespace Builder

variable {scope : ScopeId} {names more : List String} {ids ids' : List NodeId} {b b' b'' : Builder}

theorem Traces.trans {table : SymbolTable} {sites sites' : List (Site ScopeId)}
    (h : Traces table sites b b') (h' : Traces table sites' b' b'')
    (he : Arena.Extends scope more b'.table.scopes b''.table.scopes)
    (hscope : scope.index < b.table.scopes.size) (hdecls : b''.table.decls = b'.table.decls) :
    Traces table (sites ++ sites') b b'' where
  visits := by rw [h'.visits, h.visits, List.flatMap_append, List.append_assoc]
  size := by
    rw [h'.size, h.size, openings_append, List.length_append]
    omega
  opened n place o hn := by
    rw [openings_append] at hn
    by_cases hlt : n < (openings sites).length
    · rw [List.getElem?_append_left hlt] at hn
      obtain ⟨hid, hholds⟩ := h.opened n place o hn
      refine ⟨hid, ?_⟩
      rw [hdecls]
      exact hholds.extends he fun _ => Nat.lt_of_lt_of_le hscope (Nat.le_add_right _ n)
    · rw [List.getElem?_append_right (Nat.le_of_not_lt hlt)] at hn
      have hsize := h.size
      have hopened := h'.opened _ place o hn
      rwa [hsize, Nat.add_assoc, Nat.add_sub_cancel' (Nat.le_of_not_lt hlt)] at hopened

theorem Opens.trans {os os' : List Opening} (h : Opens os b b') (h' : Opens os' b' b'')
    (he : Arena.Extends scope more b'.table.scopes b''.table.scopes)
    (hscope : scope.index < b.table.scopes.size) (hdecls : b''.table.decls = b'.table.decls) :
    Opens (os ++ os') b b'' where
  size := by
    rw [h'.size, h.size, List.length_append]
    omega
  opened n o hn := by
    by_cases hlt : n < os.length
    · rw [List.getElem?_append_left hlt] at hn
      rw [hdecls]
      exact (h.opened n o hn).extends he fun _ =>
        Nat.lt_of_lt_of_le hscope (Nat.le_add_right _ n)
    · rw [List.getElem?_append_right (Nat.le_of_not_lt hlt)] at hn
      have hopened := h'.opened _ o hn
      rwa [h.size, Nat.add_assoc, Nat.add_sub_cancel' (Nat.le_of_not_lt hlt)] at hopened

/-- The sites of a body are the same in every scope, but for their places. -/
def Uniform (body : ScopeId → SymbolTable → List (Site ScopeId)) : Prop :=
  ∀ inner other table,
    List.Forall₂ (Site.Related fun _ _ => True) (body inner table) (body other table)

namespace Follows

variable {sites sites' : SymbolTable → List (Site ScopeId)}

/-- Definitions follow the patterns that they come by. -/
theorem of_defines {patterns : List (Site ScopeId)}
    (h : Builder.Defines scope names (patterns.flatMap Site.visits) b b')
    (hp : openings patterns = []) : Follows scope names [] (fun _ => patterns) b b' where
  scopes := h.scopes.extends
  decls := h.decls
  placement := h.placement
  scopeMap id _ := by rw [h.scopeMap]
  bounded hbounded id inner hid := by
    rw [h.scopeMap] at hid
    rw [h.scopes.size]
    exact hbounded id inner hid
  declarations := h.declarations
  opens table := by
    unfold constructs
    exact ⟨by rw [h.scopes.size, hp]; rfl, by simp [hp]⟩
  traces _ table _ := ⟨h.visits, by rw [h.scopes.size, hp]; rfl, by simp [hp]⟩

/-- The identities of two walks are apart, so the second walk does not touch what the first one
remembered. -/
theorem agree_left (h' : Follows scope more ids' sites' b' b'') (hnodup : (ids ++ ids').Nodup)
    {table : SymbolTable} (hagree : Agree (ids ++ ids') table b''.table) :
    Agree ids table b'.table := by
  intro id hid
  rw [hagree id (List.mem_append_left _ hid)]
  exact h'.scopeMap id fun hid' => (List.nodup_append.1 hnodup).2.2 id hid id hid' rfl

theorem trans (h : Follows scope names ids sites b b')
    (h' : Follows scope more ids' sites' b' b'') (hscope : scope.index < b.table.scopes.size) :
    Follows scope (names ++ more) (ids ++ ids') (fun t => sites t ++ sites' t) b b'' where
  scopes := h.scopes.trans h'.scopes
  decls := h'.decls.trans h.decls
  placement := h'.placement.trans h.placement
  scopeMap id hid := by
    rw [List.mem_append, not_or] at hid
    rw [h'.scopeMap id hid.2, h.scopeMap id hid.1]
  bounded hbounded := h'.bounded (h.bounded hbounded)
  declarations := h'.declarations.trans h.declarations
  opens table := by
    rw [constructs_append]
    exact (h.opens table).trans (h'.opens table) h'.scopes hscope h'.decls
  traces hnodup table hagree := by
    obtain ⟨hids, hids', -⟩ := List.nodup_append.1 hnodup
    have hsecond : Agree ids' table b''.table := fun id hid =>
      hagree id (List.mem_append_right _ hid)
    exact (h.traces hids table (h'.agree_left hnodup hagree)).trans
      (h'.traces hids' table hsecond) h'.scopes hscope h'.decls

/-- A walk may own more identities than it uses. -/
theorem weaken (h : Follows scope names ids sites b b') (hids : ids.Subperm ids') :
    Follows scope names ids' sites b b' :=
  { h with
    scopeMap := fun id hid => h.scopeMap id fun hmem => hid (hids.subset hmem)
    traces := fun hnodup table hagree => by
      exact h.traces (nodup_of_subperm hids hnodup) table fun id hid => hagree id (hids.subset hid) }

/-- Only the tables that agree with the walk matter for the sites. -/
theorem congr (h : Follows scope names ids sites b b')
    (heq : ids.Nodup → ∀ table, Agree ids table b'.table → sites table = sites' table)
    (hsame : ∀ table, List.Forall₂ (Site.Related fun _ _ => True) (sites table) (sites' table)) :
    Follows scope names ids sites' b b' :=
  { h with
    opens := fun table => constructs_eq_of_related (hsame table) ▸ h.opens table
    traces := fun hnodup table hagree => by
      rw [← heq hnodup table hagree]
      exact h.traces hnodup table hagree }

/-- Without names it does not matter in which scope the walk started. -/
theorem of_nil (h : Follows scope [] ids sites b b') (other : ScopeId) :
    Follows other [] ids sites b b' :=
  { h with scopes := h.scopes.of_nil other }

/-- One walk after another, which stands where the table says. -/
theorem trans_in {inner : ScopeId} {last : SymbolTable → ScopeId}
    {body : ScopeId → SymbolTable → List (Site ScopeId)} (h : Follows scope names ids sites b b')
    (h' : Follows inner [] ids' (body inner) b' b'') (hscope : scope.index < b.table.scopes.size)
    (hlast : ids.Nodup → ∀ table, Agree ids table b'.table → inner = last table)
    (hbody : Uniform body) :
    Follows scope names (ids ++ ids') (fun t => sites t ++ body (last t) t) b b'' := by
  have hboth := h.trans (h'.of_nil scope) hscope
  rw [List.append_nil] at hboth
  refine hboth.congr (fun hnodup table hagree => ?_) fun table => List.rel_append
    (List.forall₂_same.2 fun site _ => .self site) (hbody inner (last table) table)
  rw [hlast (List.nodup_append.1 hnodup).1 table (h'.agree_left hnodup hagree)]

section Opening

variable {o : Opening} {place : ScopeId} {body : ScopeId → SymbolTable → List (Site ScopeId)}

theorem size_enter : ((Build.enter place o.kind o.id).run b).2.table.scopes.size =
    b.table.scopes.size + 1 :=
  Arena.size_enter ..

theorem bounded_enter (h : b.table.Bounded) :
    ((Build.enter place o.kind o.id).run b).2.table.Bounded := by
  refine Table.forall_get?_insert ?_ fun id inner hid => ?_
  · rw [size_enter]
    exact Nat.lt_succ_self _
  · rw [size_enter]
    exact Nat.lt_succ_of_lt (h id inner hid)

/-- A table that agrees with a walk has the scope of its first construct. -/
theorem get?_of_enter (h : Follows ⟨b.table.scopes.size⟩ names ids sites
      ((Build.enter place o.kind o.id).run b).2 b')
    (hid : o.id ∉ ids) {table : SymbolTable} (hagree : Agree (o.id :: ids) table b'.table) :
    table.scopeMap.get? o.id = some ⟨b.table.scopes.size⟩ := by
  rw [hagree o.id List.mem_cons_self, h.scopeMap o.id hid]
  exact Table.get?_insert_self _ _ _

theorem enter_of_get? {table : SymbolTable} {inner : ScopeId}
    (h : table.scopeMap.get? o.id = some inner) : (scopeRules table).enter place o = inner := by
  simp only [scopeRules, SymbolTable.scopeFor, h, Option.getD_some]

/-- A construct opens the next scope, which receives its names and is walked through. -/
theorem opening (hplace : place.index < b.table.scopes.size) (hbody : Uniform body)
    (h : Follows ⟨b.table.scopes.size⟩ (o.names (Pattern.defined b.table.decls)) ids
      (body ⟨b.table.scopes.size⟩) ((Build.enter place o.kind o.id).run b).2 b') :
    Follows place [] (o.id :: ids)
      (fun t => .opening place o :: body ((scopeRules t).enter place o) t) b b' where
  scopes := by
    have henter := Arena.extends_enter b.table.scopes place o.kind ⟨b.table.scopes.size⟩
    exact (henter.trans h.scopes).of_le_index (Nat.le_refl _) place
  decls := h.decls
  placement := h.placement
  scopeMap id hid := by
    rw [List.mem_cons, not_or] at hid
    rw [h.scopeMap id hid.2]
    exact Table.get?_insert_of_ne _ (Ne.symm hid.1) _
  bounded hbounded := h.bounded (bounded_enter hbounded)
  declarations := h.declarations
  opens table := by
    have hopens := h.opens table
    rw [constructs_eq_of_related (hbody _ ((scopeRules table).enter place o) table)] at hopens
    refine ⟨?_, fun n o' hn => ?_⟩
    · rw [hopens.size, size_enter, Nat.add_assoc, Nat.add_comm 1]
      rfl
    · cases n with
      | zero =>
        cases hn
        rw [h.decls]
        exact (Arena.holds_of_enter hplace h.scopes).toShows
      | succ n =>
        have hopened := hopens.opened n o' hn
        rwa [size_enter, Nat.add_assoc, Nat.add_comm 1 n] at hopened
  traces hnodup table hagree := by
    obtain ⟨hid, hids⟩ := List.nodup_cons.1 hnodup
    have hmap := h.get?_of_enter hid hagree
    have hbody := h.traces hids table fun id hmem => hagree id (List.mem_cons_of_mem _ hmem)
    rw [enter_of_get? hmap]
    refine ⟨hbody.visits, ?_, fun n place' o' hn => ?_⟩
    · rw [hbody.size, size_enter]
      change _ = _ + ((openings _).length + 1)
      omega
    · cases n with
      | zero =>
        cases hn
        refine ⟨hmap, ?_⟩
        rw [h.decls]
        exact Arena.holds_of_enter hplace h.scopes
      | succ n =>
        have hopened := hbody.opened n place' o' hn
        rwa [size_enter, Nat.add_assoc, Nat.add_comm 1 n] at hopened

end Opening

end Follows

end Builder

/-! ## Steps that follow -/

namespace Build

/-- A walk can start in a scope: the declared types are known, and the scope is there. -/
structure Ready (ix : DeclIndex) (scope : ScopeId) (b : Builder) : Prop where
  decls : b.table.decls = ix
  inside : scope.index < b.table.scopes.size
  bounded : b.table.Bounded

/-- A walk can start again after another one. -/
theorem Ready.follows {ix : DeclIndex} {scope other : ScopeId} {names : List String}
    {ids : List NodeId} {sites : SymbolTable → List (Site ScopeId)} {b b' : Builder}
    (h : Ready ix scope b) (hf : Builder.Follows other names ids sites b b') : Ready ix scope b' :=
  ⟨hf.decls.trans h.decls, Nat.lt_of_lt_of_le h.inside hf.scopes.size, hf.bounded h.bounded⟩

/-- A walk can go on in a scope that was just opened. -/
theorem Ready.enter {ix : DeclIndex} {place : ScopeId} {b : Builder} (h : Ready ix place b)
    (o : Opening) : Ready ix ⟨b.table.scopes.size⟩ ((Build.enter place o.kind o.id).run b).2 where
  decls := h.decls
  inside := by
    rw [Builder.Follows.size_enter]
    exact Nat.lt_succ_self _
  bounded := Builder.Follows.bounded_enter h.bounded

/-- A step walks through sites, whatever it starts from. -/
structure Follows {α : Type} (x : Build α) (ix : DeclIndex) (scope : ScopeId)
    (names : List String) (ids : List NodeId) (sites : SymbolTable → List (Site ScopeId)) :
    Prop where
  run : ∀ b, Ready ix scope b → Builder.Follows scope names ids sites b (x.run b).2

/-- A step walks through statements and gives the scope in which their block goes on. -/
structure Reaches (x : Build ScopeId) (ix : DeclIndex) (scope : ScopeId) (names : List String)
    (ids : List NodeId) (sites : SymbolTable → List (Site ScopeId))
    (last : SymbolTable → ScopeId) : Prop extends Follows x ix scope names ids sites where
  inside : ∀ b, Ready ix scope b → (x.run b).1.index < (x.run b).2.table.scopes.size
  last : ∀ b, Ready ix scope b → ids.Nodup →
    ∀ table, Agree ids table (x.run b).2.table → (x.run b).1 = last table

variable {α β : Type} {ix : DeclIndex} {scope place : ScopeId} {names more : List String}
  {ids ids' : List NodeId} {sites sites' : SymbolTable → List (Site ScopeId)}

/-- The names of a construct come from its pattern, if it has one. -/
theorem defines_bindNames (g : Generics) (scope : ScopeId) (b : Binder) :
    (bindNames g scope b).Defines ix scope (b.opening.names (Pattern.defined ix))
      ((b.sites scope).flatMap Site.visits) := by
  have hvisits (p : Pattern) : [Site.pattern scope p].flatMap Site.visits = p.visits scope :=
    List.flatMap_singleton ..
  cases b with
  | letBind node pattern ty isMutable => exact hvisits pattern ▸ defines_defineLet ..
  | arm _ pattern | forLoop _ pattern => exact hvisits pattern ▸ defines_definePattern ..
  | lambda node params isAsync => exact defines_defineLambdaParams ..
  | catchClause node name ty => exact defines_defineException ..
  | concurrent node bindings => exact defines_defineConcurrent ..

namespace Follows

variable {x : Build α}

theorem of_defines (patterns : List (Site ScopeId))
    (h : x.Defines ix scope names (patterns.flatMap Site.visits)) (hp : openings patterns = []) :
    x.Follows ix scope names [] fun _ => patterns :=
  ⟨fun b hb => .of_defines (h.run b hb.decls) hp⟩

theorem pure (a : α) : Follows (Pure.pure a) ix scope [] [] fun _ => [] :=
  of_defines [] (.pure a) rfl

theorem bind {f : α → Build β} (hx : x.Follows ix scope names ids sites)
    (hf : ∀ a, (f a).Follows ix scope more ids' sites') :
    (x >>= f).Follows ix scope (names ++ more) (ids ++ ids') fun t => sites t ++ sites' t := by
  refine ⟨fun b hb => ?_⟩
  have h := hx.run b hb
  exact h.trans ((hf _).run _ (hb.follows h)) hb.inside

theorem then_pure (hx : x.Follows ix scope names ids sites) (f : α → β) :
    (x >>= fun a => Pure.pure (f a)).Follows ix scope names ids sites :=
  ⟨fun b hb => hx.run b hb⟩

theorem weaken (hx : x.Follows ix scope names ids sites) (hids : ids.Subperm ids') :
    x.Follows ix scope names ids' sites :=
  ⟨fun b hb => (hx.run b hb).weaken hids⟩

theorem get_bind {f : Builder → Build α} (hf : ∀ b, (f b).Follows ix scope names ids sites) :
    (get >>= f).Follows ix scope names ids sites :=
  ⟨fun b hb => (hf b).run b hb⟩

theorem forM {ι : Type} {f : ι → Build Unit} {names : ι → List String} {ids : ι → List NodeId}
    {sites : ι → SymbolTable → List (Site ScopeId)} (xs : List ι)
    (h : ∀ x, (f x).Follows ix scope (names x) (ids x) (sites x)) :
    (xs.forM f).Follows ix scope (xs.flatMap names) (xs.flatMap ids) fun t =>
      xs.flatMap fun x => sites x t := by
  induction xs with
  | nil => exact pure ()
  | cons x xs ih => exact (h x).bind fun _ => ih

theorem visit_expr (scope : ScopeId) (e : Expr) :
    (visit ⟨.expr, e.id, scope⟩).Follows ix scope [] [] fun _ => [.expr scope e] :=
  of_defines [.expr scope e] (defines_visit _) rfl

theorem visit_block (scope : ScopeId) (b : Block) :
    (visit ⟨.block, b.id, scope⟩).Follows ix scope [] [] fun _ => [.block scope b] :=
  of_defines [.block scope b] (defines_visit _) rfl

theorem define {f : α → Build β} (patterns : List (Site ScopeId))
    (hx : x.Defines ix scope names (patterns.flatMap Site.visits)) (hp : openings patterns = [])
    (hf : ∀ a, (f a).Follows ix scope [] ids sites) :
    (x >>= f).Follows ix scope names ids fun t => patterns ++ sites t := by
  have h := (of_defines patterns hx hp).bind hf
  rwa [List.append_nil] at h

/-- A construct opens a scope and is walked through in it. -/
theorem opening (o : Opening) (body : ScopeId → SymbolTable → List (Site ScopeId))
    (hbody : Builder.Uniform body) {k : ScopeId → Build α}
    (hk : ∀ inner, (k inner).Follows ix inner (o.names (Pattern.defined ix)) ids (body inner)) :
    (enter place o.kind o.id >>= k).Follows ix place [] (o.id :: ids) fun t =>
      .opening place o :: body ((scopeRules t).enter place o) t := by
  refine ⟨fun b hb => .opening hb.inside hbody ?_⟩
  rw [hb.decls]
  exact (hk _).run _ (hb.enter o)

/-- A walk that goes on in a scope which depends, by the table, on what was walked through. -/
theorem next (next : SymbolTable → ScopeId) (body : ScopeId → SymbolTable → List (Site ScopeId))
    (hbody : Builder.Uniform body) {x : Build α} {k : ScopeId → Build β}
    (hx : x.Follows ix scope [] ids sites)
    (hinside : ∀ t : SymbolTable, t.Bounded → scope.index < t.scopes.size →
      (next t).index < t.scopes.size)
    (hnext : ∀ t t', Agree ids t t' → next t = next t')
    (hk : ∀ inner, (k inner).Follows ix inner [] ids' (body inner)) :
    (x >>= fun _ => get >>= fun b => k (next b.table)).Follows ix scope [] (ids ++ ids')
      fun t => sites t ++ body (next t) t := by
  refine ⟨fun b hb => ?_⟩
  have h := hb.follows (hx.run b hb)
  exact (hx.run b hb).trans_in ((hk _).run _ ⟨h.decls, hinside _ h.bounded h.inside, h.bounded⟩)
    hb.inside (fun _ table hagree => (hnext table _ hagree).symm) hbody

end Follows

namespace Reaches

variable {last : SymbolTable → ScopeId}

theorem pure (scope : ScopeId) :
    Reaches (Pure.pure scope) ix scope [] [] (fun _ => []) fun _ => scope where
  toFollows := .pure scope
  inside _ hb := hb.inside
  last _ _ _ _ _ := rfl

/-- A walk that ends where it started. -/
theorem of_follows {x : Build α} (hx : x.Follows ix scope names ids sites) :
    (x >>= fun _ => Pure.pure scope).Reaches ix scope names ids sites fun _ => scope where
  toFollows := hx.then_pure _
  inside b hb := (hb.follows (hx.run b hb)).inside
  last _ _ _ _ _ := rfl

theorem weaken {x : Build ScopeId} (hx : x.Reaches ix scope names ids sites last)
    (hids : ids.Subperm ids') : x.Reaches ix scope names ids' sites last where
  toFollows := hx.toFollows.weaken hids
  inside := hx.inside
  last b hb hnodup table hagree :=
    hx.last b hb (nodup_of_subperm hids hnodup) table fun id hid => hagree id (hids.subset hid)

theorem get_bind {f : Builder → Build ScopeId}
    (hf : ∀ b, (f b).Reaches ix scope names ids sites last) :
    (get >>= f).Reaches ix scope names ids sites last where
  toFollows := .get_bind fun b => (hf b).toFollows
  inside b hb := (hf b).inside b hb
  last b hb := (hf b).last b hb

/-- Statements in the scope of a construct. -/
theorem opening (o : Opening) (body : ScopeId → SymbolTable → List (Site ScopeId))
    (last : ScopeId → SymbolTable → ScopeId) (hbody : Builder.Uniform body)
    {k : ScopeId → Build ScopeId}
    (hk : ∀ inner, (k inner).Reaches ix inner (o.names (Pattern.defined ix)) ids (body inner)
      (last inner)) :
    (enter place o.kind o.id >>= k).Reaches ix place [] (o.id :: ids)
      (fun t => .opening place o :: body ((scopeRules t).enter place o) t)
      fun t => last ((scopeRules t).enter place o) t where
  toFollows := .opening o body hbody fun inner => (hk inner).toFollows
  inside b hb := (hk _).inside _ (hb.enter o)
  last b hb hnodup table hagree := by
    obtain ⟨hid, hids⟩ := List.nodup_cons.1 hnodup
    have hmap := ((hk _).run _ (hb.enter o)).get?_of_enter hid hagree
    rw [Builder.Follows.enter_of_get? hmap]
    exact (hk _).last _ (hb.enter o) hids table fun id hmem => hagree id (List.mem_cons_of_mem _ hmem)

end Reaches

end Build

end UnitAnalysis

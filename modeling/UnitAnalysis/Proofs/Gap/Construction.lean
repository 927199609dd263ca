import UnitAnalysis.Proofs.Gap.Basic
import UnitAnalysis.Proofs.Order.Scopes
import UnitAnalysis.Proofs.Order.Visit

/-!
# Construction around a gap

The construction of a filled unit walks through the declarations before the function, through the
function and through the rest. The function changes nothing outside: it writes what belongs to its
own nodes, so the rest of the walk finds the same whatever the body is (`Gap.walked`). The scopes of
constructs outside the function have other numbers for another body, but they lie in each other in
the same way, and the scopes of the function are apart from them (`Gap.built`).
-/

set_option autoImplicit false

namespace UnitAnalysis

open Build

/-! ## Scopes of constructs, at the end of a construction -/

/-- A table has a scope for each of the listed constructs, directly below the place of the
construct. -/
def SymbolTable.Places (t : SymbolTable) (sites : List (Site ScopeId)) : Prop :=
  ∀ place o, .opening place o ∈ sites → ∃ scope, t.scopeMap.get? o.id = some scope ∧
    place.index < scope.index ∧ t.scopes.enclosing scope = place :: t.scopes.enclosing place

theorem SymbolTable.Places.mono {t : SymbolTable} {sites sites' : List (Site ScopeId)}
    (h : t.Places sites') (hsub : sites ⊆ sites') : t.Places sites :=
  fun place o ho => h place o (hsub ho)

theorem SymbolTable.Places.append {t : SymbolTable} {sites sites' : List (Site ScopeId)}
    (h : t.Places sites) (h' : t.Places sites') : t.Places (sites ++ sites') :=
  fun place o ho => (List.mem_append.1 ho).elim (h place o) (h' place o)

namespace Builder

/-- A construction went on from one state to another. Scopes stay where they are, and only the given
nodes may have other scopes. -/
structure Later (ids : List NodeId) (b c : Builder) : Prop where
  size : b.table.scopes.size ≤ c.table.scopes.size
  enclosing : ∀ a : ScopeId, a.index < b.table.scopes.size →
    c.table.scopes.enclosing a = b.table.scopes.enclosing a
  scopeMap : ∀ id, id ∉ ids → c.table.scopeMap.get? id = b.table.scopeMap.get? id

theorem Later.refl (b : Builder) : Later [] b b :=
  ⟨Nat.le_refl _, fun _ _ => rfl, fun _ _ => rfl⟩

theorem Later.trans {ids ids' : List NodeId} {b c d : Builder} (h : Later ids b c)
    (h' : Later ids' c d) : Later (ids ++ ids') b d where
  size := Nat.le_trans h.size h'.size
  enclosing a ha := by rw [h'.enclosing a (Nat.lt_of_lt_of_le ha h.size), h.enclosing a ha]
  scopeMap id hid := by
    rw [List.mem_append, not_or] at hid
    rw [h'.scopeMap id hid.2, h.scopeMap id hid.1]

namespace Follows

variable {scope : ScopeId} {names : List String} {ids touched : List NodeId}
  {sites : SymbolTable → List (Site ScopeId)} {b b' c : Builder}

theorem later (h : Follows scope names ids sites b b') : Later ids b b' :=
  ⟨h.scopes.size, h.scopes.enclosing, h.scopeMap⟩

/-- What a walk opened stays there, when the construction goes on at other nodes. -/
theorem places (h : Follows scope names ids sites b b') (hids : ids.Nodup)
    (hlater : Later touched b' c) (hapart : ids.Disjoint touched) :
    c.table.Places (sites c.table) := by
  intro place o ho
  obtain ⟨n, hn⟩ := List.mem_iff_getElem?.1 (mem_openings.2 ho)
  have htraces := h.traces hids c.table fun id hid => hlater.scopeMap id (hapart hid)
  obtain ⟨hid, hholds⟩ := htraces.opened n place o hn
  refine ⟨_, hid, hholds.below, ?_⟩
  rw [hlater.enclosing _ hholds.lt_size,
    hlater.enclosing place (Nat.lt_trans hholds.below hholds.lt_size), hholds.enclosing]

end Follows

end Builder

/-- A table that has the scopes of some constructs where they stand hosts them. -/
theorem SymbolTable.Places.hosts {b : Builder} (hb : b.Rooted)
    (houtermost : b.table.scopes.enclosing .global = []) {ds : List Decl}
    (h : b.table.Places (ds.flatMap (Decl.sites (scopeRules b.table) .global))) :
    b.table.Hosts (nestings ds) := by
  have hmapped : ∀ d ∈ ds, ∀ owner o, .opening owner o ∈ d.sites ownerRules none →
      ∃ scope, b.table.scopeMap.get? o.id = some scope := by
    intro d hd owner o ho
    have hsame : List.Forall₂ (Site.Related fun _ _ => True) (d.sites ownerRules none)
        (d.sites (scopeRules b.table) .global) :=
      d.sites_related trivial .all
    obtain ⟨site, hsite, hrelated⟩ := exists_of_forall₂ hsame ho
    cases hrelated with
    | @opening _ place _ _ =>
      obtain ⟨scope, hscope, -⟩ := h place o (List.mem_flatMap.2 ⟨d, hd, hsite⟩)
      exact ⟨scope, hscope⟩
  have hopened : ∀ {owner id}, (owner, id) ∈ nestings ds → ∃ scope place,
      b.table.scopeMap.get? id = some scope ∧ b.table.scopeOf? owner = some place ∧
        place.index < scope.index ∧
        b.table.scopes.enclosing scope = place :: b.table.scopes.enclosing place := by
    intro owner id hp
    obtain ⟨d, hd, o, ho, rfl⟩ := mem_nestings.1 hp
    have hrelated : List.Forall₂
        (Site.Related fun owner place => b.table.scopeOf? owner = some place)
        (d.sites ownerRules none) (d.sites (scopeRules b.table) .global) := by
      refine d.sites_related rfl ⟨fun _ _ hplace => hplace, fun owner o ho place _ => ?_⟩
      obtain ⟨scope, hscope⟩ := hmapped d hd owner o ho
      change b.table.scopeMap.get? o.id = some (b.table.scopeFor o.id place)
      rw [SymbolTable.scopeFor, hscope, Option.getD_some]
    obtain ⟨site, hsite, hsame⟩ := exists_of_forall₂ hrelated ho
    cases hsame with
    | @opening _ place _ hplace =>
      obtain ⟨scope, hscope, hlt, henclosing⟩ := h place o (List.mem_flatMap.2 ⟨d, hd, hsite⟩)
      exact ⟨scope, place, hscope, hplace, hlt, henclosing⟩
  refine ⟨houtermost, hopened, fun {p q scope} hp hq hscope hscope' => ?_⟩
  refine hb.alone hscope hscope' ?_
  rintro rfl
  obtain ⟨scope, place, hmap, -, hlt, -⟩ := hopened hp
  rw [hscope] at hmap
  obtain rfl := Option.some.inj hmap
  exact Nat.not_lt_zero _ hlt

/-- Whether a function is a method does not matter for its scopes. -/
theorem SymbolTable.Places.functions {t : SymbolTable} {fs : List FunctionDecl} {a : ScopeId}
    {isMethod : Bool} (h : t.Places (fs.flatMap (FunctionDecl.sites (scopeRules t) a isMethod))) :
    t.Places (fs.flatMap (FunctionDecl.sites (scopeRules t) a true)) := by
  intro place o ho
  obtain ⟨f, hf, ho⟩ := List.mem_flatMap.1 ho
  rcases List.mem_cons.1 ho with ho | ho
  · cases ho
    exact h a (.function f isMethod) (List.mem_flatMap.2 ⟨f, hf, List.mem_cons_self⟩)
  · exact h place o (List.mem_flatMap.2 ⟨f, hf, List.mem_cons_of_mem _ ho⟩)

/-! ## The walk around the function -/

namespace Holder

/-- The nodes of a declaration beside those of its methods. -/
def ids : Holder → List NodeId
  | alone => []
  | classLike c _ => c.node.id :: c.fields.flatMap FieldDecl.ids
  | impl i _ => [i.node.id]

/-- The sites of a declaration, one of whose methods is given, before its methods. -/
def sites {α : Type} (R : Rules α) (a : α) (f : FunctionDecl) : Holder → List (Site α)
  | classLike c later =>
    let o : Opening := .classBody { c with methods := c.methods ++ f :: later }
    .opening a o :: c.fields.flatMap (FieldDecl.sites R (R.enter a o))
  | alone | impl _ _ => []

/-- A table has the scopes of what is left of a declaration without the function. -/
theorem places_others {t : SymbolTable} {f : FunctionDecl} (h : Holder)
    (hhead : t.Places (h.sites (scopeRules t) .global f))
    (hearlier : t.Places (h.earlier.flatMap (FunctionDecl.sites (scopeRules t) (h.place t) true)))
    (hlater : t.Places (h.later.flatMap (FunctionDecl.sites (scopeRules t) (h.place t) true))) :
    t.Places (h.others.flatMap (Decl.sites (scopeRules t) .global)) := by
  intro place o ho
  cases h with
  | alone => exact absurd ho List.not_mem_nil
  | classLike c later =>
    rw [others, List.flatMap_singleton, Decl.sites, ClassDecl.sites, List.mem_cons,
      List.mem_append, List.flatMap_append, List.mem_append] at ho
    rcases ho with ho | ho | ho | ho
    · cases ho
      exact hhead .global (.classBody { c with methods := c.methods ++ f :: later })
        List.mem_cons_self
    · exact hhead place o (List.mem_cons_of_mem _ ho)
    · exact hearlier place o ho
    · exact hlater place o ho
  | impl i later =>
    rw [others, List.flatMap_singleton, Decl.sites, List.flatMap_append, List.mem_append] at ho
    exact ho.elim (hearlier place o) (hlater place o)

end Holder

namespace Build

variable {ix : DeclIndex}

/-- The walk as far as the methods of a declaration, and the scope that it reaches. -/
theorem enterHolder_reaches (f : FunctionDecl) (h : Holder) :
    ((fun e => e.scope) <$> enterHolder f h).Reaches ix .global [] h.ids
      (fun t => h.sites (scopeRules t) .global f) fun t => h.place t := by
  cases h with
  | alone => exact .pure .global
  | impl i later =>
    simp only [enterHolder, map_bind, map_pure]
    exact (Reaches.get_bind fun _ => .pure .global).weaken List.nil_subperm
  | classLike c later =>
    have hinside (g : Generics) (inner : ScopeId) :
        (defineFields inner c.fields >>= fun _ =>
          defineMethods inner (c.methods ++ f :: later) >>= fun _ =>
            visitInitializers g inner c.fields).Follows ix inner
          (Opening.names (Pattern.defined ix)
            (.classBody { c with methods := c.methods ++ f :: later }))
          (c.fields.flatMap FieldDecl.ids)
          fun t => c.fields.flatMap (FieldDecl.sites (scopeRules t) inner) :=
      (Follows.of_defines [] (defines_defineFields inner c.fields) rfl).bind fun _ =>
        .define [] (defines_defineMethods inner (c.methods ++ f :: later)) rfl fun _ =>
          visitInitializers_follows g inner c.fields
    simp only [enterHolder, map_bind, map_pure]
    refine .get_bind fun b => .opening (.classBody { c with methods := c.methods ++ f :: later })
      (fun inner t => c.fields.flatMap (FieldDecl.sites (scopeRules t) inner))
      (fun inner _ => inner)
      (fun _ _ _ => forall₂_flatMap c.fields fun f _ => f.sites_related trivial .all) fun inner => ?_
    simpa only [bind_assoc] using Reaches.of_follows (hinside _ inner)

end Build

namespace Gap

variable (g : Gap) (body : Block)

/-- The nodes that the walk comes by before the function. -/
def earlierIds : List NodeId :=
  g.unit.decls.flatMap Decl.ids ++ (g.holder.ids ++ g.holder.earlier.flatMap FunctionDecl.ids)

/-- The nodes that the walk comes by after the function. -/
def laterIds : List NodeId :=
  g.holder.later.flatMap FunctionDecl.ids ++ g.after.flatMap Decl.ids

theorem ids_others : (g.others.flatMap Decl.ids).Perm (g.earlierIds ++ g.laterIds) := by
  have hholder : (g.holder.others.flatMap Decl.ids).Perm (g.holder.ids ++
      (g.holder.earlier.flatMap FunctionDecl.ids ++ g.holder.later.flatMap FunctionDecl.ids)) := by
    rw [List.perm_iff_count]
    intro id
    cases g.holder <;> simp [Holder.others, Holder.ids, Holder.earlier, Holder.later, Decl.ids]
  rw [List.perm_iff_count] at hholder ⊢
  intro id
  have hcount := hholder id
  simp only [others, earlierIds, laterIds, List.flatMap_append, List.count_append] at hcount ⊢
  omega

variable {ix : DeclIndex} {b : Builder}

/-- The walk through some methods follows their sites. -/
theorem visitFrom_follows (e : Entrance) (fs : List FunctionDecl)
    (hb : Build.Ready ix e.scope b) :
    Builder.Follows e.scope [] (fs.flatMap FunctionDecl.ids)
      (fun t => fs.flatMap (FunctionDecl.sites (scopeRules t) e.scope e.self.isSome)) b
      ((fs.forM (visitFrom e)).run b).2 := by
  have hwalk := (Build.Follows.forM fs fun f =>
    visitFunction_follows e.generics e.scope e.self f).run b hb
  rwa [List.flatMap_eq_nil_iff.2 fun _ _ => rfl] at hwalk

/-- The walk as far as the function, and the scope that it reaches. -/
theorem lead_follows (hb : Build.Ready ix .global b) :
    let r := (g.lead body).run b
    Builder.Follows .global (g.unit.decls.flatMap (Decl.scriptNames (Pattern.defined ix)))
        g.earlierIds
        (fun t => g.unit.decls.flatMap (Decl.sites (scopeRules t) .global) ++
          (g.holder.sites (scopeRules t) .global (g.function body) ++ g.holder.earlier.flatMap
            (FunctionDecl.sites (scopeRules t) (g.holder.place t) r.1.self.isSome)))
        b r.2 ∧
      r.1.scope.index < r.2.table.scopes.size ∧
      (g.earlierIds.Nodup → ∀ t, Agree g.earlierIds t r.2.table → r.1.scope = g.holder.place t) := by
  intro r
  have hbefore := (Build.Follows.forM g.unit.decls visitDecl_follows).run b hb
  have hready := hb.follows hbefore
  have henter : ((fun e => e.scope) <$> enterHolder (g.function body) g.holder).Reaches ix
      .global [] g.holder.ids (fun t => g.holder.sites (scopeRules t) .global (g.function body))
      fun t => g.holder.place t := enterHolder_reaches (g.function body) g.holder
  have hhead := henter.run _ hready
  have hinside : r.1.scope.index < _ := henter.inside _ hready
  have hplace : g.holder.ids.Nodup → ∀ t, Agree g.holder.ids t _ → r.1.scope = g.holder.place t :=
    henter.last _ hready
  have hready' : Build.Ready ix r.1.scope _ :=
    ⟨(hready.follows hhead).decls, hinside, (hready.follows hhead).bounded⟩
  have hmethods := visitFrom_follows r.1 g.holder.earlier hready'
  have hholder := hhead.trans (hmethods.of_nil .global) hready.inside
  -- The methods stand in the scope that the table has for the declaration.
  have hlast : g.earlierIds.Nodup → ∀ t, Agree g.earlierIds t r.2.table →
      r.1.scope = g.holder.place t := by
    intro hnodup t hagree
    have hnodup' := (List.nodup_append.1 hnodup).2.1
    refine hplace (List.nodup_append.1 hnodup').1 t (hmethods.agree_left hnodup' ?_)
    exact fun id hid => hagree id (List.mem_append_right _ hid)
  have hall := hbefore.trans hholder hb.inside
  simp only [List.append_nil] at hall
  refine ⟨hall.congr (fun hnodup t hagree => ?_) fun t => ?_, ?_, hlast⟩
  · rw [hlast hnodup t hagree]
  · refine List.rel_append (List.forall₂_same.2 fun site _ => .self site) (List.rel_append
      (List.forall₂_same.2 fun site _ => .self site) ?_)
    exact forall₂_flatMap _ fun f _ => f.sites_related trivial .all
  · exact Nat.lt_of_lt_of_le hinside hmethods.scopes.size

theorem afterVisit_follows (e : Entrance) (hb : Build.Ready ix .global b)
    (hscope : e.scope.index < b.table.scopes.size) :
    Builder.Follows .global (g.after.flatMap (Decl.scriptNames (Pattern.defined ix))) g.laterIds
      (fun t => g.holder.later.flatMap (FunctionDecl.sites (scopeRules t) e.scope e.self.isSome) ++
        g.after.flatMap (Decl.sites (scopeRules t) .global))
      b ((g.afterVisit e).run b).2 := by
  have hmethods := visitFrom_follows e g.holder.later ⟨hb.decls, hscope, hb.bounded⟩
  have hafter := (Build.Follows.forM g.after visitDecl_follows).run _ (hb.follows hmethods)
  exact (hmethods.of_nil .global).trans hafter hb.inside

end Gap

/-! ## States of the construction -/

theorem Builder.Declares.rooted {names : List String} {b : Builder}
    (h : Builder.Declares names {} b) : b.Rooted := by
  have hnone : ∀ {id scope}, b.table.scopeMap.get? id ≠ some scope := by
    intro id scope hid
    rw [h.scopeMap] at hid
    cases hid
  exact ⟨fun _ _ hid => absurd hid hnone, h.size_pos Nat.one_pos, fun hid => absurd hid hnone⟩

/-- The walk as far as the methods of a declaration. -/
theorem Build.enterHolder_walks (f : FunctionDecl) (h : Holder) :
    Walks Set.univ h.ids (enterHolder f h) (enterHolder f h) := by
  cases h with
  | alone => exact .pure _ _
  | impl i later => exact (Walks.get_bind fun _ _ _ _ _ => .pure _ _).mono (List.nil_subset _)
  | classLike c later =>
    refine .get_bind fun b b' _ _ hindex => ?_
    dsimp only
    rw [typeGenerics_congr (hindex.alike.get? c.name)]
    exact .mono (.opening fun inner inner' => .fill
      (fun _ howner (_ : ∀ id ∈ [], Key.node id ∈ Set.univ) =>
        fills_defineFields howner fun _ _ => trivial) fun _ => .fill
        (fun _ howner (_ : ∀ id ∈ [], Key.node id ∈ Set.univ) =>
          fills_defineMethods howner fun _ _ => trivial) fun _ =>
          .of_walks ((visitInitializers_walks _ inner inner' c.fields).bind fun _ _ =>
            .pure _ _)) (by simp [Holder.ids])

theorem Build.visitFrom_walks {W : Set Key} (e : Entrance) (f : FunctionDecl) :
    Walks W f.ids (visitFrom e f) (visitFrom e f) :=
  visitFunction_walks e.generics e.scope e.scope e.self f

namespace Gap

variable (g : Gap) (intrinsics : List (String × TypeExpr)) (body : Block)

/-- Where the construction stands when it comes to the function. -/
def atVisit : Entrance × Builder :=
  (g.upToVisit intrinsics body).run {}

/-- The construction after the walk through the function. -/
def visited : Builder :=
  ((visitFrom (g.atVisit intrinsics body).1 (g.function body)).run
    (g.atVisit intrinsics body).2).2

theorem atVisit_eq (body' : Block) : g.atVisit intrinsics body = g.atVisit intrinsics body' := by
  rw [atVisit, g.upToVisit_eq intrinsics body body', atVisit]

theorem ofUnit_fill :
    Builder.ofUnit intrinsics (g.fill body) =
      ((g.afterVisit (g.atVisit intrinsics body).1).run (g.visited intrinsics body)).2 := by
  simp only [Builder.ofUnit, g.unit_eq, run_bind, atVisit, visited]

/-- The walk after the function does not read the body. -/
theorem afterVisit_walks {W : Set Key} (hglobal : ∀ name, .global name ∈ W) (e : Entrance) :
    Build.Walks W g.laterIds (g.afterVisit e) (g.afterVisit e) :=
  (Build.Walks.forM g.holder.later (visitFrom_walks e)).bind fun _ _ =>
    .forM g.after fun d => visitDecl_walks d fun _ => hglobal

theorem rooted_atVisit : (g.atVisit intrinsics body).2.Rooted := by
  have hdeclared := ((declare_declares intrinsics (g.fill body)).run {} Nat.one_pos).rooted
  have hbefore := (Build.Walks.forM g.unit.decls fun d =>
    visitDecl_walks d fun _ _ => Set.mem_univ _).rooted hdeclared
  have hholder := (enterHolder_walks (g.function body) g.holder).rooted hbefore
  simp only [atVisit, upToVisit, lead, run_bind]
  exact (Build.Walks.forM g.holder.earlier (visitFrom_walks _)).rooted hholder

theorem rooted_visited : (g.visited intrinsics body).Rooted :=
  (visitFrom_walks _ (g.function body)).rooted (g.rooted_atVisit intrinsics body)

theorem rooted_ofUnit : (Builder.ofUnit intrinsics (g.fill body)).Rooted := by
  rw [ofUnit_fill]
  exact (g.afterVisit_walks (fun _ => Set.mem_univ _) _).rooted (g.rooted_visited intrinsics body)

theorem atVisit_run :
    g.atVisit intrinsics body =
      (g.lead body).run ((declare intrinsics (g.fill body)).run {}).2 := by
  simp only [atVisit, upToVisit, run_bind]

theorem ready_declared :
    let b := ((declare intrinsics (g.fill body)).run {}).2
    Build.Ready b.table.decls .global b :=
  have hdeclares := (declare_declares intrinsics (g.fill body)).run {} Nat.one_pos
  ⟨rfl, hdeclares.rooted.pos, hdeclares.rooted.bounded⟩

/-- The walk through the function can start. -/
theorem ready_atVisit :
    Build.Ready (g.atVisit intrinsics body).2.table.decls (g.atVisit intrinsics body).1.scope
      (g.atVisit intrinsics body).2 := by
  rw [atVisit_run]
  obtain ⟨hlead, hscope, -⟩ := g.lead_follows body (g.ready_declared intrinsics body)
  exact ⟨rfl, hscope, hlead.bounded (g.ready_declared intrinsics body).bounded⟩

theorem visited_follows :
    Builder.Follows (g.atVisit intrinsics body).1.scope [] (g.function body).ids
      (fun t => (g.function body).sites (scopeRules t) (g.atVisit intrinsics body).1.scope
        (g.atVisit intrinsics body).1.self.isSome)
      (g.atVisit intrinsics body).2 (g.visited intrinsics body) :=
  (visitFunction_follows _ _ _ _).run _ (g.ready_atVisit intrinsics body)

theorem ofUnit_follows :
    ∃ names, Builder.Follows .global names g.laterIds
      (fun t => g.holder.later.flatMap (FunctionDecl.sites (scopeRules t)
          (g.atVisit intrinsics body).1.scope (g.atVisit intrinsics body).1.self.isSome) ++
        g.after.flatMap (Decl.sites (scopeRules t) .global))
      (g.visited intrinsics body) (Builder.ofUnit intrinsics (g.fill body)) := by
  rw [ofUnit_fill]
  have hready := (g.ready_atVisit intrinsics body).follows (g.visited_follows intrinsics body)
  have hrooted := g.rooted_visited intrinsics body
  exact ⟨_, g.afterVisit_follows _ ⟨rfl, hrooted.pos, hrooted.bounded⟩ hready.inside⟩

end Gap

/-- The keys of some nodes. -/
def Key.nodes (ids : List NodeId) : Set Key :=
  fun
    | .node id => id ∈ ids
    | _ => False

theorem Key.nodes_mono {ids ids' : List NodeId} (h : ids ⊆ ids') : nodes ids ⊆ nodes ids' := by
  intro k hk
  cases k with
  | node id => exact h hk
  | _ => exact hk

theorem Key.index_subset_compl_nodes (ids : List NodeId) : index ⊆ (nodes ids)ᶜ := by
  intro k hk hnode
  cases k with
  | node id => exact hk
  | _ => exact hnode

namespace Gap

variable (g : Gap) (intrinsics : List (String × TypeExpr)) (body : Block)

/-- The walk through the function works on the nodes of the function. -/
theorem visited_walked :
    Builder.Walked (Key.nodes (g.function body).ids) (g.atVisit intrinsics body).2
      (g.atVisit intrinsics body).2 (g.visited intrinsics body) (g.visited intrinsics body) :=
  (visitFrom_walks _ (g.function body)).run (fun _ hid => hid) _ _
    (g.rooted_atVisit intrinsics body) (g.rooted_atVisit intrinsics body) (.refl _ _) (.refl _ _)

/-- The function has a scope after the walk through it. -/
theorem visited_isSome :
    ((g.visited intrinsics body).table.scopeMap.get? (g.function body).node.id).isSome := by
  unfold visited visitFrom
  exact visitFunction_isSome _ _ _ _ (g.rooted_atVisit intrinsics body)

/-- There is nothing around the global scope, and only nodes before the function have scopes, when
the construction comes to the function. -/
theorem atVisit_scopes :
    (g.atVisit intrinsics body).2.table.scopes.enclosing .global = [] ∧
      ∀ id, id ∉ g.earlierIds → (g.atVisit intrinsics body).2.table.scopeMap.get? id = none := by
  have hdeclares := (declare_declares intrinsics (g.fill body)).run {} Nat.one_pos
  obtain ⟨hlead, -, -⟩ := g.lead_follows body (g.ready_declared intrinsics body)
  rw [← atVisit_run] at hlead
  constructor
  · rw [hlead.scopes.enclosing .global hdeclares.rooted.pos, hdeclares.scopes.enclosing]
    rfl
  · intro id hid
    rw [hlead.scopeMap id hid, hdeclares.scopeMap]
    rfl

/-! ## What a construction leaves behind -/

/-- What a check relies on in the construction of a filled unit: the constructs outside the function
have scopes that lie in each other, and the function has scopes of its own. -/
structure Built (b : Builder) : Prop where
  rooted : b.Rooted
  hosts : b.table.Hosts (nestings g.others)
  opened : (b.table.scopeMap.get? (g.function body).node.id).isSome
  inner : ∀ id ∈ (g.function body).ids, b.table.scopeMap.get? id ≠ some .global

section Built

variable {g body} (hids : g.ids.Nodup) (hbody : body.ids.Disjoint g.ids)

include hids

theorem nodup_earlier_later : (g.earlierIds ++ g.laterIds).Nodup :=
  g.ids_others.nodup_iff.1 (List.nodup_append.1 (List.nodup_cons.1 hids).2).2.1

include hbody

/-- The function has no node in common with the rest of the unit. -/
theorem not_mem_others {id : NodeId} (hid : id ∈ (g.function body).ids) :
    id ∉ g.others.flatMap Decl.ids := by
  intro hother
  rw [ids_function, List.mem_append] at hid
  rcases hid with hid | hid
  · exact (List.nodup_append.1 (List.nodup_cons.1 hids).2).2.2 id hid id hother rfl
  · exact hbody hid (List.mem_cons_of_mem _ (List.mem_append_right _ hother))

theorem not_mem_earlier_later {id : NodeId} (hid : id ∈ (g.function body).ids) :
    id ∉ g.earlierIds ∧ id ∉ g.laterIds := by
  rw [← not_or, ← List.mem_append, ← g.ids_others.mem_iff]
  exact not_mem_others hids hbody hid

/-- The constructs outside the function have their scopes at the end of the construction. -/
theorem places_ofUnit :
    let t := (Builder.ofUnit intrinsics (g.fill body)).table
    t.Places (g.others.flatMap (Decl.sites (scopeRules t) .global)) := by
  intro t
  obtain ⟨hearlier, hlater, hapart⟩ := List.nodup_append.1 (nodup_earlier_later hids)
  obtain ⟨hlead, -, hplace⟩ := g.lead_follows body (g.ready_declared intrinsics body)
  rw [← atVisit_run] at hlead hplace
  obtain ⟨names, hrest⟩ := g.ofUnit_follows intrinsics body
  -- What comes after the lead is at other nodes.
  have hend := (g.visited_follows intrinsics body).later.trans hrest.later
  have hnot : g.earlierIds.Disjoint ((g.function body).ids ++ g.laterIds) := by
    intro id hid hid'
    rcases List.mem_append.1 hid' with hid' | hid'
    · exact (not_mem_earlier_later hids hbody hid').1 hid
    · exact hapart id hid id hid' rfl
  have hscope := hplace hearlier t fun id hid => hend.scopeMap id (hnot hid)
  have hfirst := hlead.places hearlier hend hnot
  have hsecond := hrest.places hlater (.refl _) (List.disjoint_nil_right _)
  rw [hscope] at hsecond
  simp only [others, List.flatMap_append]
  refine .append (hfirst.mono (List.subset_append_left _ _)) (.append ?_
    (hsecond.mono (List.subset_append_right _ _)))
  have hholder := hfirst.mono (List.subset_append_right _ _)
  exact g.holder.places_others (hholder.mono (List.subset_append_left _ _))
    (hholder.mono (List.subset_append_right _ _)).functions
    (hsecond.mono (List.subset_append_left _ _)).functions

theorem built : g.Built body (Builder.ofUnit intrinsics (g.fill body)) := by
  obtain ⟨names, hrest⟩ := g.ofUnit_follows intrinsics body
  obtain ⟨houtermost, hnone⟩ := g.atVisit_scopes intrinsics body
  have hrooted := g.rooted_ofUnit intrinsics body
  refine ⟨hrooted, (places_ofUnit intrinsics hids hbody).hosts hrooted ?_, ?_, fun id hid h => ?_⟩
  · have hend := (g.visited_follows intrinsics body).later.trans hrest.later
    rw [hend.enclosing .global (g.rooted_atVisit intrinsics body).pos, houtermost]
  · rw [hrest.scopeMap _ (not_mem_earlier_later hids hbody List.mem_cons_self).2]
    exact g.visited_isSome intrinsics body
  · -- Nothing is remembered for the function before, and nothing global while it is walked through.
    obtain ⟨hearlier, hlater⟩ := not_mem_earlier_later hids hbody hid
    rw [hrest.scopeMap id hlater] at h
    have hglobal := (g.visited_walked intrinsics body).remembers.global "" (fun h => h) h
    rw [hnone id hearlier] at hglobal
    cases hglobal

end Built

/-! ## Two bodies for one gap -/

section Bodies

variable {g body} {body' : Block} (hids : g.ids.Nodup) (hbody : body.ids.Disjoint g.ids)
  (hbody' : body'.ids.Disjoint g.ids)

include hids hbody hbody'

/-- Two bodies lead to constructions that show the same outside the function. The walk after the
function logs the same problems. -/
theorem walked :
    Builder.Walked (Key.nodes ((g.function body).ids ++ (g.function body').ids))ᶜ
      (g.visited intrinsics body) (g.visited intrinsics body')
      (Builder.ofUnit intrinsics (g.fill body)) (Builder.ofUnit intrinsics (g.fill body')) := by
  have hkept := (g.visited_walked intrinsics body).moves.kept
  have hkept' := (g.visited_walked intrinsics body').moves.kept
  rw [g.atVisit_eq intrinsics body' body] at hkept'
  have hagree : Builder.AgreeOn (Key.nodes ((g.function body).ids ++ (g.function body').ids))ᶜ
      (g.visited intrinsics body) (g.visited intrinsics body') := by
    refine (hkept.mono ?_).symm.trans (hkept'.mono ?_)
    · exact fun k hk hnode => hk (Key.nodes_mono (List.subset_append_left _ _) hnode)
    · exact fun k hk hnode => hk (Key.nodes_mono (List.subset_append_right _ _) hnode)
  have hlater : ∀ id ∈ g.laterIds,
      .node id ∈ (Key.nodes ((g.function body).ids ++ (g.function body').ids))ᶜ := by
    intro id hid hmem
    rcases List.mem_append.1 hmem with hmem | hmem
    · exact (not_mem_earlier_later hids hbody hmem).2 hid
    · exact (not_mem_earlier_later hids hbody' hmem).2 hid
  rw [ofUnit_fill, ofUnit_fill, g.atVisit_eq intrinsics body' body]
  have hglobal (name : String) :
      .global name ∈ (Key.nodes ((g.function body).ids ++ (g.function body').ids))ᶜ := fun h => h
  exact (g.afterVisit_walks hglobal _).run hlater _ _ (g.rooted_visited intrinsics body)
    (g.rooted_visited intrinsics body') hagree (hagree.mono (Key.index_subset_compl_nodes _))

end Bodies

/-- What is declared does not depend on the body. -/
theorem declarations_eq (body' : Block) :
    (Builder.ofUnit intrinsics (g.fill body)).declarations =
      (Builder.ofUnit intrinsics (g.fill body')).declarations := by
  have hend (body : Block) : (Builder.ofUnit intrinsics (g.fill body)).declarations =
      (g.atVisit intrinsics body).2.declarations := by
    obtain ⟨names, hrest⟩ := g.ofUnit_follows intrinsics body
    exact hrest.declarations.trans (g.visited_follows intrinsics body).declarations
  rw [hend body, hend body', g.atVisit_eq intrinsics body' body]

end Gap

end UnitAnalysis

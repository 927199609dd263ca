import UnitAnalysis.Proofs.Syntax.Route

/-!
# The identities of sites

The expressions, blocks and patterns that are listed as sites are nodes of the unit, each listed
once: their identities are among the identities of the unit, none listed more often. So a unit whose
identities differ has no two sites of one identity. `MadeOf` counts in the constructs that open
scopes, which are nodes of the unit as well, but may be listed as sites of other kinds too.
-/

set_option autoImplicit false

namespace UnitAnalysis

variable {α : Type}

/-- The nodes that a site shows. A pattern is shown with the patterns in it, and a construct that
opens a scope is shown as a node elsewhere. -/
def Site.nodeIds : Site α → List NodeId
  | expr _ e => [e.id]
  | block _ b => [b.id]
  | pattern _ p => p.ids
  | opening _ _ => []

/-- The identities of the nodes that sites show. -/
def nodeIds (sites : List (Site α)) : List NodeId :=
  sites.flatMap Site.nodeIds

section Lists

variable (place : α) (sites more : List (Site α))

theorem nodeIds_append : nodeIds (sites ++ more) = nodeIds sites ++ nodeIds more :=
  List.flatMap_append

theorem nodeIds_opening (o : Opening) : nodeIds (.opening place o :: sites) = nodeIds sites := rfl

end Lists

theorem nodeIds_binder (b : Binder) (place : α) : (nodeIds (b.sites place)).Subperm b.partIds := by
  cases b <;> simp [Binder.sites, Binder.patterns, Binder.partIds, nodeIds, Site.nodeIds,
    List.Subperm.refl]

variable (R : Rules α)

/-- The nodes that are listed are nodes on the way. -/
theorem Route.nodeIds_subperm : Induction (fun e => ∀ a, (nodeIds (e.sites R a)).Subperm e.ids)
    (fun b => ∀ kind a, (nodeIds (b.sites R kind a)).Subperm b.ids)
    (fun r => ∀ a, (nodeIds (r.sites R a)).Subperm r.partIds) where
  ofExpr e hroute a := by
    rw [e.sites_eq]
    exact ((List.subperm_cons _).2 (hroute a)).trans e.partIds_route_subperm
  ofBlock b hroute kind a := by
    rw [b.sites_eq]
    exact ((List.subperm_cons _).2 (hroute _)).trans b.partIds_route_subperm
  done _ := .refl _
  expr isSkipped e rest he hrest a := by
    rw [Route.sites, nodeIds_append]
    exact (he _).append (hrest a)
  block kind b rest hb hrest a := by
    rw [Route.sites, nodeIds_append]
    exact (hb kind a).append (hrest a)
  opening b inner rest hinner hrest a := by
    rw [Route.sites, nodeIds_append, nodeIds_opening, nodeIds_append, List.append_assoc]
    exact (nodeIds_binder b _).append ((hinner _).append (hrest a))
  stmt node value rest hvalue hrest a := by
    rw [Route.sites, nodeIds_append]
    exact (hvalue a).append (hrest _)

/-- The nodes that are listed for an expression are nodes of it. -/
theorem Expr.nodeIds_subperm (a : α) (e : Expr) : (nodeIds (e.sites R a)).Subperm e.ids :=
  (Route.nodeIds_subperm R).toExpr e a

/-- What holds of the parts of a list holds of the whole. -/
theorem nodeIds_flatMap_subperm {ι : Type} {f : ι → List (Site α)} {ids : ι → List NodeId}
    (h : ∀ x, (nodeIds (f x)).Subperm (ids x)) (xs : List ι) :
    (nodeIds (xs.flatMap f)).Subperm (xs.flatMap ids) := by
  induction xs with
  | nil => exact .refl _
  | cons x xs ih =>
    simp only [List.flatMap_cons, nodeIds_append]
    exact (h x).append ih

theorem FunctionDecl.nodeIds_subperm (a : α) (isMethod : Bool) (f : FunctionDecl) :
    (nodeIds (f.sites R a isMethod)).Subperm f.ids :=
  (((Route.nodeIds_subperm R).toBlock f.body .block _).trans
    (List.sublist_append_right _ _).subperm).cons_right _

theorem FieldDecl.nodeIds_subperm (a : α) (f : FieldDecl) :
    (nodeIds (f.sites R a)).Subperm f.ids := by
  obtain ⟨node, name, ty, isMutable, initializer⟩ := f
  cases initializer with
  | none => exact List.nil_subperm
  | some e => exact (e.nodeIds_subperm R a).cons_right _

theorem Decl.nodeIds_subperm (a : α) (d : Decl) : (nodeIds (d.sites R a)).Subperm d.ids := by
  cases d with
  | function f => exact f.nodeIds_subperm R a false
  | classLike c =>
    simp only [Decl.sites, ClassDecl.sites, nodeIds_opening, nodeIds_append]
    exact ((nodeIds_flatMap_subperm (FieldDecl.nodeIds_subperm R _) c.fields).append
      (nodeIds_flatMap_subperm (FunctionDecl.nodeIds_subperm R _ true) c.methods)).cons_right _
  | struct s | spark s =>
    exact (nodeIds_flatMap_subperm (FieldDecl.nodeIds_subperm R a) s.fields).cons_right _
  | data _ | trait _ | interface _ => exact List.nil_subperm
  | impl i =>
    exact (nodeIds_flatMap_subperm (FunctionDecl.nodeIds_subperm R a true) i.methods).cons_right _
  | script s =>
    cases s with
    | letBind node pattern ty isMutable value =>
      simp only [Decl.sites, Stmt.scriptSites, nodeIds_append]
      exact ((value.nodeIds_subperm R a).append (.refl _)).cons_right _
    | expr node value =>
      exact ((value.nodeIds_subperm R a).trans
        (List.sublist_append_left _ _).subperm).cons_right _

/-- The nodes that are listed for a unit are nodes of it, none listed more often. -/
theorem SourceUnit.nodeIds_subperm (a : α) (u : SourceUnit) :
    (nodeIds (u.sites R a)).Subperm u.ids :=
  (nodeIds_flatMap_subperm (Decl.nodeIds_subperm R a) u.decls).cons_right _

/-- Where nothing is listed twice, each part belongs to one member. -/
theorem eq_of_mem_flatMap {ι κ : Type} {l : List ι} {g : ι → List κ} (h : (l.flatMap g).Nodup)
    {a b : ι} {x : κ} (ha : a ∈ l) (hb : b ∈ l) (hxa : x ∈ g a) (hxb : x ∈ g b) : a = b := by
  induction l with
  | nil => cases ha
  | cons y l ih =>
    rw [List.flatMap_cons] at h
    obtain ⟨-, hrest, hapart⟩ := List.nodup_append.1 h
    have hlater {c : ι} (hc : c ∈ l) (hxc : x ∈ g c) : x ∉ g y := fun hxy =>
      hapart x hxy x (List.mem_flatMap.2 ⟨c, hc, hxc⟩) rfl
    rcases List.mem_cons.1 ha with rfl | ha'
    · rcases List.mem_cons.1 hb with rfl | hb'
      · rfl
      · exact absurd hxa (hlater hb' hxb)
    · rcases List.mem_cons.1 hb with rfl | hb'
      · exact absurd hxb (hlater ha' hxa)
      · exact ih hrest ha' hb'

/-- No two sites of a unit show the same node. -/
theorem SourceUnit.site_unique {R : Rules α} {a : α} {u : SourceUnit} (hids : u.ids.Nodup)
    {s t : Site α} (hs : s ∈ u.sites R a) (ht : t ∈ u.sites R a) {id : NodeId}
    (hid : id ∈ s.nodeIds) (hid' : id ∈ t.nodeIds) : s = t :=
  eq_of_mem_flatMap (nodup_of_subperm (u.nodeIds_subperm R a) hids) hs ht hid hid'

/-! ## The nodes of constructs -/

/-- The nodes that a construct introduces: its own and, for a lambda, those of its parameters. -/
def Opening.ids : Opening → List NodeId
  | lambda node params _ => node.id :: params.map fun p => p.node.id
  | o => [o.id]

theorem Opening.id_mem_ids (o : Opening) : o.id ∈ o.ids := by
  cases o <;> exact List.mem_cons_self

/-- The nodes of a site. -/
def Site.ids : Site α → List NodeId
  | opening _ o => o.ids
  | site => site.nodeIds

/-- All sites are made of some nodes. -/
def MadeOf (sites : List (Site α)) (ids : List NodeId) : Prop :=
  ∀ site ∈ sites, site.ids ⊆ ids

namespace MadeOf

variable {sites more : List (Site α)} {ids ids' : List NodeId}

theorem nil (ids : List NodeId) : MadeOf ([] : List (Site α)) ids := by
  simp [MadeOf]

theorem cons {site : Site α} (hsite : site.ids ⊆ ids) (h : MadeOf sites ids) :
    MadeOf (site :: sites) ids :=
  List.forall_mem_cons.2 ⟨hsite, h⟩

theorem mono (h : MadeOf sites ids) (hsub : ids ⊆ ids') : MadeOf sites ids' :=
  fun site hsite => List.Subset.trans (h site hsite) hsub

theorem append (h : MadeOf sites ids) (h' : MadeOf more ids') :
    MadeOf (sites ++ more) (ids ++ ids') :=
  List.forall_mem_append.2 ⟨h.mono (List.subset_append_left _ _),
    h'.mono (List.subset_append_right _ _)⟩

/-- A node that is not shown. -/
theorem skip (h : MadeOf sites ids) (id : NodeId) : MadeOf sites (id :: ids) :=
  h.mono (List.subset_cons_self _ _)

/-- A site of the first node. -/
theorem head {site : Site α} {id : NodeId} (hsite : site.ids = [id])
    (h : MadeOf sites (id :: ids)) : MadeOf (site :: sites) (id :: ids) :=
  h.cons (hsite ▸ List.cons_subset_cons id (List.nil_subset ids))

theorem pattern {p : Pattern} {a : α} (h : MadeOf sites ids) :
    MadeOf (.pattern a p :: sites) (p.ids ++ ids) :=
  (h.mono (List.subset_append_right _ _)).cons (List.subset_append_left _ _)

theorem flatMap {ι : Type} {f : ι → List (Site α)} {ids : ι → List NodeId}
    (h : ∀ x, MadeOf (f x) (ids x)) (xs : List ι) : MadeOf (xs.flatMap f) (xs.flatMap ids) := by
  induction xs with
  | nil => exact nil _
  | cons x xs ih => exact (h x).append ih

end MadeOf

/-- Sites are made of the nodes on the way. -/
theorem Route.madeOf : Induction
    (fun e => ∀ a, MadeOf (e.sites R a) e.ids) (fun b => ∀ kind a, MadeOf (b.sites R kind a) b.ids)
    (fun r => ∀ a, MadeOf (r.sites R a) r.ids) where
  ofExpr e hroute a := by
    rw [e.sites_eq]
    refine .cons ?_ ((hroute a).mono e.ids_route_subperm.subset)
    exact List.cons_subset.2 ⟨e.partIds_route_subperm.subset List.mem_cons_self, List.nil_subset _⟩
  ofBlock b hroute kind a := by
    rw [b.sites_eq]
    have hbody := (hroute (R.enter a (.block kind b))).skip b.id
    exact MadeOf.mono (.head rfl (.head rfl hbody)) b.ids_route_subperm.subset
  done _ := .nil _
  expr isSkipped e rest he hrest a := (he _).append (hrest a)
  block kind b rest hb hrest a := (hb kind a).append (hrest a)
  opening b inner rest hinner hrest a := by
    have hown : MadeOf (.opening a b.opening :: b.sites (R.enter a b.opening)) b.ids := by
      cases b <;> simp [MadeOf, Binder.sites, Binder.patterns, Binder.ids, Binder.partIds,
        Binder.opening, Site.ids, Site.nodeIds, Opening.ids, Opening.id]
    rw [Route.ids_opening]
    exact (hown.append (hinner _)).append (hrest a)
  stmt node value rest hvalue hrest a := (hvalue a).append (hrest _)

theorem Expr.madeOf (a : α) (e : Expr) : MadeOf (e.sites R a) e.ids :=
  (Route.madeOf R).toExpr e a

theorem Block.madeOf (kind : ScopeKind) (a : α) (b : Block) : MadeOf (b.sites R kind a) b.ids :=
  (Route.madeOf R).toBlock b kind a

theorem FunctionDecl.madeOf (a : α) (isMethod : Bool) (f : FunctionDecl) :
    MadeOf (f.sites R a isMethod) f.ids :=
  .head rfl (((f.body.madeOf R .block (R.enter a (.function f isMethod))).mono
    (List.subset_append_right _ _)).skip f.node.id)

theorem FieldDecl.madeOf (a : α) (f : FieldDecl) : MadeOf (f.sites R a) f.ids := by
  obtain ⟨node, name, ty, isMutable, initializer⟩ := f
  cases initializer with
  | none => exact .nil _
  | some e => exact (e.madeOf R a).skip node.id

theorem Decl.madeOf (a : α) (d : Decl) : MadeOf (d.sites R a) d.ids := by
  cases d with
  | function f => exact f.madeOf R a false
  | classLike c =>
    have hfields := MadeOf.flatMap (FieldDecl.madeOf R (R.enter a (.classBody c))) c.fields
    have hmethods := MadeOf.flatMap (FunctionDecl.madeOf R (R.enter a (.classBody c)) true) c.methods
    exact .head rfl ((hfields.append hmethods).skip c.node.id)
  | struct s | spark s => exact (MadeOf.flatMap (FieldDecl.madeOf R a) s.fields).skip s.node.id
  | data _ | trait _ | interface _ => exact .nil _
  | impl i => exact (MadeOf.flatMap (FunctionDecl.madeOf R a true) i.methods).skip i.node.id
  | script s =>
    cases s with
    | letBind node pattern ty isMutable value =>
      exact ((value.madeOf R a).append (MadeOf.nil []).pattern).skip node.id
    | expr node value =>
      exact ((value.madeOf R a).mono (List.subset_append_left _ _)).skip node.id

end UnitAnalysis

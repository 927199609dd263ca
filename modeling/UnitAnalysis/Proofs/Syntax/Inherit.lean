import Mathlib.Data.List.Forall2
import UnitAnalysis.Proofs.Syntax.Route

/-!
# Comparing two ways of inheriting

A unit can be listed under two sets of rules at once. `SourceUnit.sites_related` says that the two
lists go side by side: when the places at the start are related, and going into each construct of
the unit keeps places related, then every place of the one list is related to the place of the other
list that shows the same thing. Facts about the places of a single list are the case in which the
other list knows nothing.
-/

set_option autoImplicit false

namespace UnitAnalysis

/-- Two sites show the same thing, with related places. -/
inductive Site.Related {α β : Type} (Rel : α → β → Prop) : Site α → Site β → Prop where
  | expr {a : α} {b : β} {e : Expr} (h : Rel a b) : Related Rel (.expr a e) (.expr b e)
  | block {a : α} {b : β} {body : Block} (h : Rel a b) : Related Rel (.block a body) (.block b body)
  | pattern {a : α} {b : β} {p : Pattern} (h : Rel a b) : Related Rel (.pattern a p) (.pattern b p)
  | opening {a : α} {b : β} {o : Opening} (h : Rel a b) : Related Rel (.opening a o) (.opening b o)

theorem Site.Related.self {α : Type} (site : Site α) : Related (fun _ _ => True) site site := by
  cases site <;> constructor <;> trivial

/-- The rules keep places related, as far as the listed constructs go. -/
structure KeepsRelated {α β : Type} (R : Rules α) (S : Rules β) (Rel : α → β → Prop)
    (sites : List (Site α)) : Prop where
  /-- Places stay related on the way into a target that cannot be assigned to. -/
  skip : ∀ a b, Rel a b → Rel (R.skip a) (S.skip b)
  /-- Places stay related on the way into a listed construct. -/
  enter : ∀ a o, .opening a o ∈ sites → ∀ b, Rel a b → Rel (R.enter a o) (S.enter b o)

namespace KeepsRelated

variable {α β : Type} {R : Rules α} {S : Rules β} {Rel : α → β → Prop} {site : Site α}
  {l m : List (Site α)}

/-- All places are related when nothing is asked of them. -/
theorem all : KeepsRelated R S (fun _ _ => True) l :=
  ⟨fun _ _ _ => trivial, fun _ _ _ _ _ => trivial⟩

theorem mono (h : KeepsRelated R S Rel l) (hm : ∀ site ∈ m, site ∈ l) : KeepsRelated R S Rel m :=
  ⟨h.skip, fun a o ho => h.enter a o (hm _ ho)⟩

theorem tail (h : KeepsRelated R S Rel (site :: l)) : KeepsRelated R S Rel l :=
  h.mono fun _ hs => List.mem_cons_of_mem _ hs

theorem left (h : KeepsRelated R S Rel (l ++ m)) : KeepsRelated R S Rel l :=
  h.mono fun _ hs => List.mem_append_left _ hs

theorem right (h : KeepsRelated R S Rel (l ++ m)) : KeepsRelated R S Rel m :=
  h.mono fun _ hs => List.mem_append_right _ hs

theorem head {a : α} {o : Opening} (h : KeepsRelated R S Rel (.opening a o :: l)) {b : β}
    (hab : Rel a b) : Rel (R.enter a o) (S.enter b o) :=
  h.enter a o List.mem_cons_self b hab

theorem of_mem_flatMap {ι : Type} {xs : List ι} {f : ι → List (Site α)} {x : ι}
    (h : KeepsRelated R S Rel (xs.flatMap f)) (hx : x ∈ xs) : KeepsRelated R S Rel (f x) :=
  h.mono fun _ hs => List.mem_flatMap.2 ⟨x, hx, hs⟩

end KeepsRelated

section Related

variable {α β : Type} {R : Rules α} {S : Rules β} {Rel : α → β → Prop}

variable {a : α} {b : β}

/-- Places stay related past a statement that is an expression. -/
theorem KeepsRelated.after {node : Node} {value : Expr} (hab : Rel a b)
    (hk : KeepsRelated R S Rel (value.sites R a)) :
    Rel (R.after a (.expr node value)) (S.after b (.expr node value)) := by
  cases value with
  | concurrent node' bindings =>
    simp only [Expr.sites] at hk
    exact hk.tail.right.head hab
  | _ => exact hab

theorem Binder.sites_related (binder : Binder) (hab : Rel a b) :
    List.Forall₂ (Site.Related Rel) (binder.sites a) (binder.sites b) := by
  cases binder <;> first | exact .nil | exact .cons (.pattern hab) .nil

/-- Sites are related one by one, when their places are. -/
theorem Route.related : Induction
    (fun e => ∀ a b, Rel a b → KeepsRelated R S Rel (e.sites R a) →
      List.Forall₂ (Site.Related Rel) (e.sites R a) (e.sites S b))
    (fun body => ∀ kind a b, Rel a b → KeepsRelated R S Rel (body.sites R kind a) →
      List.Forall₂ (Site.Related Rel) (body.sites R kind a) (body.sites S kind b))
    (fun r => ∀ a b, Rel a b → KeepsRelated R S Rel (r.sites R a) →
      List.Forall₂ (Site.Related Rel) (r.sites R a) (r.sites S b)) where
  ofExpr e hroute a b hab hk := by
    rw [e.sites_eq] at hk ⊢
    rw [e.sites_eq]
    exact .cons (.expr hab) (hroute a b hab hk.tail)
  ofBlock body hroute kind a b hab hk := by
    rw [body.sites_eq] at hk ⊢
    rw [body.sites_eq]
    exact .cons (.block hab) (.cons (.opening hab)
      (hroute _ _ (hk.tail.head hab) hk.tail.tail))
  done _ _ _ _ := .nil
  expr isSkipped e rest he hrest a b hab hk := by
    refine List.rel_append (he _ _ ?_ hk.left) (hrest a b hab hk.right)
    cases isSkipped with
    | false => exact hab
    | true => exact hk.skip a b hab
  block kind body rest hbody hrest a b hab hk :=
    List.rel_append (hbody kind a b hab hk.left) (hrest a b hab hk.right)
  opening binder inner rest hinner hrest a b hab hk := by
    have hin := hk.left.head hab
    exact List.rel_append (.cons (.opening hab) (List.rel_append (binder.sites_related hin)
      (hinner _ _ hin hk.left.tail.right))) (hrest a b hab hk.right)
  stmt node value rest hvalue hrest a b hab hk :=
    List.rel_append (hvalue a b hab hk.left) (hrest _ _ (hk.left.after hab) hk.right)

/-- The sites of an expression are related one by one, when its place is. -/
theorem Expr.sites_related (e : Expr) (hab : Rel a b) (hk : KeepsRelated R S Rel (e.sites R a)) :
    List.Forall₂ (Site.Related Rel) (e.sites R a) (e.sites S b) :=
  Route.related.toExpr e a b hab hk

theorem Block.sites_related {kind : ScopeKind} (body : Block) (hab : Rel a b)
    (hk : KeepsRelated R S Rel (body.sites R kind a)) :
    List.Forall₂ (Site.Related Rel) (body.sites R kind a) (body.sites S kind b) :=
  Route.related.toBlock body kind a b hab hk

/-- The member of the one list that stands beside a member of the other. -/
theorem getElem?_of_forall₂ {γ δ : Type} {r : γ → δ → Prop} {l : List γ} {m : List δ}
    (h : List.Forall₂ r l m) {n : Nat} {x : γ} (hx : l[n]? = some x) :
    ∃ y, m[n]? = some y ∧ r x y := by
  induction h generalizing n with
  | nil => simp at hx
  | cons hr _ ih =>
    cases n with
    | zero =>
      cases hx
      exact ⟨_, rfl, hr⟩
    | succ n => exact ih hx

/-- Each member of a list has a related one in the other list. -/
theorem exists_of_forall₂ {γ δ : Type} {r : γ → δ → Prop} {l : List γ} {m : List δ} {x : γ}
    (h : List.Forall₂ r l m) (hx : x ∈ l) : ∃ y ∈ m, r x y := by
  obtain ⟨n, hn⟩ := List.mem_iff_getElem?.1 hx
  obtain ⟨y, hy, hxy⟩ := getElem?_of_forall₂ h hn
  exact ⟨y, List.mem_of_getElem? hy, hxy⟩

/-- Lists that are put together of related parts are related. -/
theorem forall₂_flatMap {ι γ δ : Type} {r : γ → δ → Prop} {f : ι → List γ} {g : ι → List δ}
    (xs : List ι) (h : ∀ x ∈ xs, List.Forall₂ r (f x) (g x)) :
    List.Forall₂ r (xs.flatMap f) (xs.flatMap g) := by
  induction xs with
  | nil => exact .nil
  | cons x xs ih =>
    simp only [List.flatMap_cons]
    exact List.rel_append (h x List.mem_cons_self)
      (ih fun y hy => h y (List.mem_cons_of_mem _ hy))

/-- Lists that go side by side give the same members of a kind, when their members do. -/
theorem filter_flatMap_of_forall₂ {γ δ ε : Type} {r : γ → δ → Prop} {f : γ → List ε}
    {g : δ → List ε} {p : ε → Bool} {l : List γ} {m : List δ}
    (hg : ∀ x y, r x y → (f x).filter p = g y) (h : List.Forall₂ r l m) :
    (l.flatMap f).filter p = m.flatMap g := by
  induction h with
  | nil => rfl
  | cons hxy _ ih =>
    rw [List.flatMap_cons, List.flatMap_cons, List.filter_append, ih, hg _ _ hxy]

theorem FunctionDecl.sites_related {isMethod : Bool} (f : FunctionDecl)
    (hab : Rel a b) (hk : KeepsRelated R S Rel (f.sites R a isMethod)) :
    List.Forall₂ (Site.Related Rel) (f.sites R a isMethod) (f.sites S b isMethod) :=
  .cons (.opening hab) (f.body.sites_related (hk.head hab) hk.tail)

theorem FieldDecl.sites_related (f : FieldDecl) (hab : Rel a b)
    (hk : KeepsRelated R S Rel (f.sites R a)) :
    List.Forall₂ (Site.Related Rel) (f.sites R a) (f.sites S b) := by
  obtain ⟨node, name, ty, isMutable, initializer⟩ := f
  cases initializer with
  | none => exact .nil
  | some e => exact e.sites_related hab hk

theorem ClassDecl.sites_related (c : ClassDecl) (hab : Rel a b)
    (hk : KeepsRelated R S Rel (c.sites R a)) :
    List.Forall₂ (Site.Related Rel) (c.sites R a) (c.sites S b) := by
  have hin := hk.head hab
  have hfields := hk.tail.left
  have hmethods := hk.tail.right
  exact .cons (.opening hab) (List.rel_append
    (forall₂_flatMap c.fields fun f hf => f.sites_related hin (hfields.of_mem_flatMap hf))
    (forall₂_flatMap c.methods fun f hf => f.sites_related hin (hmethods.of_mem_flatMap hf)))

theorem Decl.sites_related (d : Decl) (hab : Rel a b) (hk : KeepsRelated R S Rel (d.sites R a)) :
    List.Forall₂ (Site.Related Rel) (d.sites R a) (d.sites S b) := by
  cases d with
  | function f => exact f.sites_related hab hk
  | classLike c => exact c.sites_related hab hk
  | struct s | spark s =>
    exact forall₂_flatMap s.fields fun f hf => f.sites_related hab (hk.of_mem_flatMap hf)
  | data _ | trait _ | interface _ => exact .nil
  | impl i => exact forall₂_flatMap i.methods fun f hf => f.sites_related hab (hk.of_mem_flatMap hf)
  | script s =>
    cases s with
    | letBind node pattern ty isMutable value =>
      exact List.rel_append (value.sites_related hab hk.left) (.cons (.pattern hab) .nil)
    | expr node value => exact value.sites_related hab hk

/-- The two lists of the sites of a unit go side by side, with related places. -/
theorem SourceUnit.sites_related (u : SourceUnit) (hab : Rel a b)
    (hk : KeepsRelated R S Rel (u.sites R a)) :
    List.Forall₂ (Site.Related Rel) (u.sites R a) (u.sites S b) :=
  forall₂_flatMap u.decls fun d hd => d.sites_related hab (hk.of_mem_flatMap hd)

end Related

end UnitAnalysis

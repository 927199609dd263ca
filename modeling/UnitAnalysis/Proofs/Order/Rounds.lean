import UnitAnalysis.Proofs.Order.Declare
import UnitAnalysis.Proofs.Order.Rearranged
import UnitAnalysis.Proofs.Order.Visit

/-!
# Rounds in any order

Each of the three rounds over a unit works on keys of the declaration at hand. Declarations that are
apart have no key in common in any round, so two of them can change places (`Build.Acts.swap`), and
rearranged declarations lead to constructions that show the same (`Builder.ofUnit_same`).
-/

set_option autoImplicit false

namespace UnitAnalysis

namespace Builder

/-- Two constructions show the same, and have logged the same in some order. -/
structure Same (b b' : Builder) : Prop where
  view : ∀ k, b.view k = b'.view k
  findings : b.findings.Perm b'.findings
  traits : b.traits.Perm b'.traits
  impls : b.impls.Perm b'.impls
  rooted : b.Rooted
  rooted' : b'.Rooted

namespace Same

variable {b b' b'' : Builder}

theorem refl (h : b.Rooted) : Same b b :=
  ⟨fun _ => rfl, .refl _, .refl _, .refl _, h, h⟩

theorem symm (h : Same b b') : Same b' b :=
  ⟨fun k => (h.view k).symm, h.findings.symm, h.traits.symm, h.impls.symm, h.rooted', h.rooted⟩

theorem trans (h : Same b b') (h' : Same b' b'') : Same b b'' :=
  ⟨fun k => (h.view k).trans (h'.view k), h.findings.trans h'.findings, h.traits.trans h'.traits,
    h.impls.trans h'.impls, h.rooted, h'.rooted'⟩

theorem agree (h : Same b b') (K : Set Key) : AgreeOn K b b' :=
  fun k _ => h.view k

end Same

end Builder

namespace Build

open Builder

/-- A step works on the keys `W` and reads the keys `R` beside them. -/
structure Acts (W R : Set Key) (x : Build Unit) : Prop where
  run : ∀ b b' : Builder, b.Rooted → b'.Rooted → Builder.AgreeOn W b b' → Builder.AgreeOn R b b' →
    Walked W b b' (x.run b).2 (x.run b').2

namespace Acts

variable {W W' R R' : Set Key} {x y : Build Unit} {b b' : Builder}

theorem of_fills (h : FillsGlobal W R x) : Acts W R x := by
  refine ⟨fun b b' hb hb' hW hR => ?_⟩
  have hrun := h.run b b' hb.receives hb'.receives hW hR
  exact ⟨hrun.moves, hb.of_sameScopes hrun.scopes, hb'.of_sameScopes hrun.scopes',
    .of_eq hrun.scopes.scopeMap⟩

theorem of_walks {ids : List NodeId} (h : Walks W ids x x) (hids : ∀ id ∈ ids, .node id ∈ W) :
    Acts W Key.index x :=
  ⟨h.run hids⟩

/-- A step keeps constructions the same. -/
theorem same (h : Acts W R x) (hb : Same b b') : Same (x.run b).2 (x.run b').2 := by
  obtain ⟨hmoves, hrooted, hrooted'⟩ :=
    h.run b b' hb.rooted hb.rooted' (hb.agree W) (hb.agree R)
  obtain ⟨found, traits, impls, hlogs, hlogs'⟩ := hmoves.logs
  refine ⟨fun k => hmoves.agree_of (hb.agree Set.univ) k trivial, ?_, ?_, ?_, hrooted, hrooted'⟩
  · rw [hlogs.findings, hlogs'.findings]
    exact hb.findings.append_right found
  · rw [hlogs.traits, hlogs'.traits]
    exact hb.traits.append_right traits
  · rw [hlogs.impls, hlogs'.impls]
    exact hb.impls.append_right impls

/-- Two steps that neither write nor read what the other writes can change places. -/
theorem swap (hx : Acts W R x) (hy : Acts W' R' y) (hW : W ⊆ W'ᶜ) (hR : W' ⊆ Rᶜ) (hR' : W ⊆ R'ᶜ)
    (hb : b.Rooted) :
    Same (y.run (x.run b).2).2 (x.run (y.run b).2).2 := by
  have hrefl : ∀ K, Builder.AgreeOn K b b := fun K => .refl K b
  have hfirst := hx.run b b hb hb (hrefl W) (hrefl R)
  have hfirst' := hy.run b b hb hb (hrefl W') (hrefl R')
  -- Each step finds its keys untouched by the other.
  have hkeptx : Builder.AgreeOn Wᶜ b (x.run b).2 := hfirst.moves.kept
  have hkepty : Builder.AgreeOn W'ᶜ b (y.run b).2 := hfirst'.moves.kept
  have hsecond := hy.run b (x.run b).2 hb hfirst.rooted
    (hkeptx.mono fun _ hk hkW => hW hkW hk)
    (hkeptx.mono fun _ hk hkW => hR' hkW hk)
  have hsecond' := hx.run b (y.run b).2 hb hfirst'.rooted
    (hkepty.mono fun _ hk hkW' => hW hk hkW')
    (hkepty.mono fun _ hk hkW' => hR hkW' hk)
  obtain ⟨found, traits, impls, hlogs, hlogs'⟩ := hsecond.moves.logs
  obtain ⟨more, traits', impls', hmore, hmore'⟩ := hsecond'.moves.logs
  refine ⟨fun k => ?_, ?_, ?_, ?_, hsecond.rooted', hsecond'.rooted'⟩
  · by_cases hkW : k ∈ W
    · have hkW' : k ∉ W' := hW hkW
      exact (hsecond.moves.kept' k hkW').symm.trans (hsecond'.moves.agree k hkW)
    · by_cases hkW' : k ∈ W'
      · exact (hsecond.moves.agree k hkW').symm.trans (hsecond'.moves.kept' k hkW)
      · calc (y.run (x.run b).2).2.view k = (x.run b).2.view k := (hsecond.moves.kept' k hkW').symm
          _ = b.view k := (hkeptx k hkW).symm
          _ = (y.run b).2.view k := hkepty k hkW'
          _ = (x.run (y.run b).2).2.view k := hsecond'.moves.kept' k hkW
  · rw [hlogs'.findings, hmore.findings, hmore'.findings, hlogs.findings, List.append_assoc,
      List.append_assoc]
    exact List.perm_append_comm.append_left _
  · rw [hlogs'.traits, hmore.traits, hmore'.traits, hlogs.traits, List.append_assoc,
      List.append_assoc]
    exact List.perm_append_comm.append_left _
  · rw [hlogs'.impls, hmore.impls, hmore'.impls, hlogs.impls, List.append_assoc, List.append_assoc]
    exact List.perm_append_comm.append_left _

end Acts

end Build

/-! ## Declarations that are apart -/

/-- The keys that say which types are declared. -/
def Key.isDeclared : Set Key :=
  fun
    | .declared _ => True
    | _ => False

/-- The keys of global names. -/
def Key.isGlobal : Set Key :=
  fun
    | .global _ => True
    | _ => False

namespace Decl

/-- What the first round works on for a declaration. -/
def typeKeys (d : Decl) : Set Key :=
  fun
    | .node id => id ∈ d.ids
    | .declared name => name ∈ d.ownNames
    | .type name => name ∈ d.ownNames
    | .global name => name ∈ d.ownNames

/-- What the second round works on for a declaration. -/
def memberKeys (d : Decl) : Set Key :=
  fun
    | .node id => id ∈ d.ids
    | .declared _ => False
    | .type name => name ∈ d.ownNames
    | .global name => name ∈ d.ownNames

/-- Two declarations have no node and no name in common, and are not both of the script. -/
structure Apart (d d' : Decl) : Prop where
  ids : d.ids.Disjoint d'.ids
  names : d.ownNames.Disjoint d'.ownNames
  script : ¬ (d.isScript = true ∧ d'.isScript = true)

namespace Apart

variable {d d' : Decl}

theorem typeKeys (h : d.Apart d') : d.typeKeys ⊆ d'.typeKeysᶜ := by
  intro k hk hk'
  cases k with
  | node id => exact h.ids hk hk'
  | declared name | type name | global name => exact h.names hk hk'

theorem memberKeys (h : d.Apart d') : d.memberKeys ⊆ d'.memberKeysᶜ := by
  intro k hk hk'
  cases k with
  | node id => exact h.ids hk hk'
  | declared name => exact hk
  | type name => exact h.names hk hk'
  | global name => exact h.names hk hk'

theorem visitKeys (h : d.Apart d') : d.visitKeys ⊆ d'.visitKeysᶜ := by
  intro k hk hk'
  cases k with
  | node id => exact h.ids hk hk'
  | declared name => exact hk
  | type name => exact hk
  | global name => exact h.script ⟨hk, hk'⟩

end Apart

end Decl

/-- The second round declares no type. -/
theorem Decl.memberKeys_subset (d : Decl) : d.memberKeys ⊆ Key.isDeclaredᶜ := by
  intro k hk hdeclared
  cases k with
  | declared name => exact hk
  | _ => exact hdeclared

/-- The third round changes no declared type. -/
theorem Decl.visitKeys_subset (d : Decl) : d.visitKeys ⊆ Key.indexᶜ := by
  intro k hk hindex
  cases k with
  | declared name => exact hk
  | type name => exact hk
  | _ => exact hindex

namespace Build

open Builder

theorem acts_declareType (d : Decl) : Acts d.typeKeys ∅ (declareType d) :=
  .of_fills (declareType_fills (fun _ hid => hid) fun _ hname => ⟨hname, hname, hname⟩)

theorem acts_seedIntrinsics (extra : List (String × TypeExpr)) :
    Acts Key.isGlobal Key.isDeclared (seedIntrinsics extra) :=
  have hR : ∀ name, .declared name ∈ Key.isDeclared := fun _ => trivial
  have hW : ∀ name, .global name ∈ Key.isGlobal := fun _ => trivial
  .of_fills (seedIntrinsics_fills hR hW extra)

theorem acts_declareMembers (d : Decl) : Acts d.memberKeys Key.isDeclared (declareMembers d) :=
  have hR : ∀ name, .declared name ∈ Key.isDeclared := fun _ => trivial
  .of_fills (declareMembers_fills hR (fun _ hid => hid) fun _ hname => ⟨hname, hname⟩)

theorem acts_visitDecl (d : Decl) : Acts d.visitKeys Key.index (visitDecl d) :=
  .of_walks (visitDecl_walks d fun hscript _ => hscript) fun _ hid => hid

/-- A round over rearranged declarations. -/
theorem forM_same {W : Decl → Set Key} {R : Set Key} {step : Decl → Build Unit}
    (hacts : ∀ d, Acts (W d) R (step d)) (hR : ∀ d, W d ⊆ Rᶜ)
    (hW : ∀ {d d' : Decl}, d.Apart d' → W d ⊆ (W d')ᶜ) {decls decls' : List Decl}
    (h : Rearranged Decl.Apart decls decls') {b b' : Builder} (hb : Same b b') :
    Same ((decls.forM step).run b).2 ((decls'.forM step).run b').2 := by
  rw [forM_run, forM_run]
  refine Rearranged.foldl .symm .trans (fun d => (hacts d).same) ?_ h hb
  intro d d' hapart b hsame
  exact (hacts d).swap (hacts d') (hW hapart) (hR d') (hR d) hsame.rooted

end Build

/-- A construction of rearranged declarations shows the same. -/
theorem Builder.ofUnit_same (intrinsics : List (String × TypeExpr)) {u u' : SourceUnit}
    (h : Rearranged Decl.Apart u.decls u'.decls) :
    Same (Builder.ofUnit intrinsics u) (Builder.ofUnit intrinsics u') := by
  have htypes := Build.forM_same Build.acts_declareType (fun _ _ _ hk => hk)
    Decl.Apart.typeKeys h (.refl rooted_empty)
  have hseeds := (Build.acts_seedIntrinsics intrinsics).same htypes
  have hmembers := Build.forM_same Build.acts_declareMembers Decl.memberKeys_subset
    Decl.Apart.memberKeys h hseeds
  simp only [Builder.ofUnit, Build.unit_eq, Build.declare, Build.run_bind]
  exact Build.forM_same Build.acts_visitDecl Decl.visitKeys_subset Decl.Apart.visitKeys h hmembers

end UnitAnalysis

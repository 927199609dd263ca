import UnitAnalysis.Proofs.Ty.Action
import UnitAnalysis.Proofs.Ty.Compatible

/-!
# What walking along a type finds

Walking a type along an actual type never changes a type that a parameter has already, so what a
parameter gets at its first occurrence is what it has in the end. Where the shapes line up and every
occurrence fits, the type with its parameters replaced fits the actual type, also when parameters
get types afterwards.
-/

set_option autoImplicit false

namespace UnitAnalysis

namespace Subst

/-- Every parameter that has a type keeps it. -/
def Extends (s s' : Subst) : Prop :=
  ∀ name t, s.get? name = some t → s'.get? name = some t

theorem Extends.refl (s : Subst) : s.Extends s :=
  fun _ _ h => h

theorem Extends.trans {s₁ s₂ s₃ : Subst} (h : s₁.Extends s₂) (h' : s₂.Extends s₃) :
    s₁.Extends s₃ :=
  fun name t ht => h' name t (h name t ht)

theorem get?_insert_self (s : Subst) (name : String) (t : Ty) :
    (s.insert name t).get? name = some t :=
  Table.get?_insert_self ..

theorem extends_insert {s : Subst} {name : String} (h : s.get? name = none) (t : Ty) :
    s.Extends (s.insert name t) := by
  intro other u hother
  have hne : name ≠ other := by
    rintro rfl
    rw [h] at hother
    cases hother
  exact (Table.get?_insert_of_ne s.bindings hne t).trans hother

theorem extends_bindParam (s : Subst) (name : String) (actual : Ty) :
    s.Extends (s.bindParam name actual).2 := by
  unfold bindParam
  split
  · exact .refl s
  · next hnone =>
      split
      · exact .refl s
      · exact extends_insert hnone actual

theorem extends_bind_and_bindAll :
    (∀ (s : Subst) pattern actual, s.Extends (s.bind pattern actual).2) ∧
    ∀ (s : Subst) patterns actuals, s.Extends (s.bindAll patterns actuals).2 := by
  apply bind.mutual_induct (fun s pattern actual => s.Extends (s.bind pattern actual).2)
    (fun s patterns actuals => s.Extends (s.bindAll patterns actuals).2)
  case case1 =>
    intro s name bounds actual
    rw [bind]
    exact extends_bindParam s name actual
  case case2 | case3 =>
    intro s p a ih
    rwa [bind]
  case case4 =>
    intro s p actual hplain ih
    rwa [bind]
    exact hplain
  case case5 =>
    intro s f ps g as hsame ih
    rwa [bind, if_pos hsame]
  case case7 =>
    intro s ps as hsame ih
    rwa [bind, if_pos hsame]
  case case9 =>
    intro s ps r as t hsame params ihparams ihret
    rw [bind, if_pos hsame]
    exact ihparams.trans ihret
  case case6 | case8 | case10 =>
    intros
    rw [bind, if_neg ‹_›]
    exact .refl _
  case case11 =>
    intro t s actual
    intros
    rw [bind]
    · exact .refl s
    all_goals assumption
  case case12 =>
    intro s p ps a as first ihfirst ihrest
    rw [bindAll]
    exact ihfirst.trans ihrest
  case case13 =>
    intro ps s as hends
    rw [bindAll]
    · exact .refl s
    · exact hends

theorem extends_bind (s : Subst) (pattern actual : Ty) : s.Extends (s.bind pattern actual).2 :=
  extends_bind_and_bindAll.1 s pattern actual

theorem extends_bindAll (s : Subst) (patterns actuals : List Ty) :
    s.Extends (s.bindAll patterns actuals).2 :=
  extends_bind_and_bindAll.2 s patterns actuals

/-- A type that has no parameters left once they are replaced is the same under all extensions. -/
theorem Extends.apply_eq {s s' : Subst} (h : s.Extends s') {t : Ty}
    (hclosed : (s.apply t).hasParams = false) : s'.apply t = s.apply t := by
  refine apply_congr_params fun p hp => ?_
  obtain ⟨u, hget, -⟩ := hasParams_apply_eq_false_iff.1 hclosed p hp
  rw [hget, h p.1 u hget]

end Subst

/-! ## Shapes that line up -/

namespace Ty

mutual

/-- Whether a type fits an actual type as far as its shape says, with parameters taken to fit
everything. -/
def linesUp : Ty → Ty → Bool
  | param _ _, _ => true
  | _, prim .any => true
  | optional p, optional a => p.isVoid || a.isVoid || p.linesUp a
  | array p, array a => p.isVoid || a.isVoid || p.linesUp a
  | tuple ps, tuple as => linesUpAll ps as
  | generic f ps, generic g as => f == g && linesUpAll ps as
  | function ps r, function as t => linesUpAll ps as && r.linesUp t
  | p, a => !p.hasParams && p.compatible a

/-- The same for as many types as actual types, one each. -/
def linesUpAll : List Ty → List Ty → Bool
  | [], [] => true
  | p :: ps, a :: as => p.linesUp a && linesUpAll ps as
  | _, _ => false

end

/-- The same for an argument: where an optional is expected, a plain value will do. -/
def linesUpAsArgument : Ty → Ty → Bool
  | optional p, optional a => (optional p).linesUp (optional a)
  | optional p, a => p.linesUpAsArgument a
  | p, a => p.linesUp a

theorem length_eq_of_linesUpAll :
    ∀ {ps as : List Ty}, linesUpAll ps as = true → ps.length = as.length
  | [], [], _ => rfl
  | p :: ps, a :: as, h => by
    rw [linesUpAll, Bool.and_eq_true] at h
    rw [List.length_cons, List.length_cons, length_eq_of_linesUpAll h.2]
  | [], _ :: _, h => by simp [linesUpAll] at h
  | _ :: _, [], h => by simp [linesUpAll] at h

theorem isAny_iff {t : Ty} : t.isAny = true ↔ t = any := by
  unfold isAny
  split <;> simp_all

theorem isVoid_iff {t : Ty} : t.isVoid = true ↔ t = void := by
  unfold isVoid
  split <;> simp_all

end Ty

namespace Subst

theorem isVoid_apply {t : Ty} (s : Subst) (h : t.isVoid = true) : (s.apply t).isVoid = true := by
  rw [Ty.isVoid_iff.1 h, s.action_apply.prim]
  rfl

theorem compatible_apply_of_closed {p a : Ty} (s : Subst)
    (h : (!p.hasParams && p.compatible a) = true) : (s.apply p).compatible a = true := by
  simp only [Bool.and_eq_true, Bool.not_eq_true'] at h
  rw [s.apply_eq_self h.1]
  exact h.2

theorem compatible_of_bindParam {s s' : Subst} {name : String} {actual : Ty} (bounds : NameSet)
    (hfits : (s.bindParam name actual).1 = true) (hext : (s.bindParam name actual).2.Extends s') :
    (s'.apply (.param name bounds)).compatible actual = true := by
  rw [apply_param]
  unfold bindParam at hfits hext
  split at hfits
  · next bound hbound =>
      simp only [hbound] at hext
      rw [hext name bound hbound]
      exact hfits
  · next hnone =>
      simp only [hnone] at hext
      by_cases hany : actual.isAny = true
      · rw [Ty.isAny_iff.1 hany]
        exact Ty.compatible_any _
      · rw [if_neg hany] at hext
        rw [hext name actual (s.get?_insert_self name actual)]
        exact actual.compatible_refl

/-- Where shapes line up and all occurrences fit, the type with its parameters replaced fits. -/
theorem compatible_of_bind_and_bindAll :
    (∀ (s : Subst) p a, p.linesUp a = true → (s.bind p a).1 = true →
      ∀ s' : Subst, (s.bind p a).2.Extends s' → (s'.apply p).compatible a = true) ∧
    ∀ (s : Subst) ps as, Ty.linesUpAll ps as = true → (s.bindAll ps as).1 = true →
      ∀ s' : Subst, (s.bindAll ps as).2.Extends s' →
        Ty.compatibleAll (ps.map s'.apply) as = true := by
  apply bind.mutual_induct
    (fun s p a => p.linesUp a = true → (s.bind p a).1 = true →
      ∀ s' : Subst, (s.bind p a).2.Extends s' → (s'.apply p).compatible a = true)
    (fun s ps as => Ty.linesUpAll ps as = true → (s.bindAll ps as).1 = true →
      ∀ s' : Subst, (s.bindAll ps as).2.Extends s' →
        Ty.compatibleAll (ps.map s'.apply) as = true)
  case case1 =>
    intro s name bounds actual _ hfits s' hext
    rw [bind] at hfits hext
    exact compatible_of_bindParam bounds hfits hext
  case case2 | case3 =>
    intro s p a ih hshape hfits s' hext
    rw [bind] at hfits hext
    simp only [Ty.linesUp, Bool.or_eq_true] at hshape
    simp only [s'.action_apply.optional, s'.action_apply.array, Ty.compatible, Bool.or_eq_true]
    exact hshape.imp (Or.imp_left s'.isVoid_apply) fun h => ih h hfits s' hext
  case case4 =>
    intro s p actual hplain _ hshape _ s' _
    by_cases hany : actual = .any
    · rw [hany]
      exact Ty.compatible_any _
    · rw [Ty.linesUp] at hshape
      · exact s'.compatible_apply_of_closed hshape
      all_goals simp_all
  case case5 =>
    intro s f ps g as hsame ih hshape hfits s' hext
    rw [bind, if_pos hsame] at hfits hext
    rw [Ty.linesUp, Bool.and_eq_true] at hshape
    rw [s'.action_apply.generic, Ty.compatible, Bool.and_eq_true]
    exact ⟨hshape.1, ih hshape.2 hfits s' hext⟩
  case case6 =>
    intro s f ps g as hdiffer hshape
    rw [Ty.linesUp, Bool.and_eq_true, beq_iff_eq] at hshape
    exact absurd ⟨hshape.1, Ty.length_eq_of_linesUpAll hshape.2⟩ hdiffer
  case case7 =>
    intro s ps as hsame ih hshape hfits s' hext
    rw [bind, if_pos hsame] at hfits hext
    rw [Ty.linesUp] at hshape
    rw [s'.action_apply.tuple, Ty.compatible]
    exact ih hshape hfits s' hext
  case case8 =>
    intro s ps as hdiffer hshape
    rw [Ty.linesUp] at hshape
    exact absurd (Ty.length_eq_of_linesUpAll hshape) hdiffer
  case case9 =>
    intro s ps r as t hsame params ihparams ihret hshape hfits s' hext
    rw [bind, if_pos hsame] at hfits hext
    rw [Ty.linesUp, Bool.and_eq_true] at hshape
    rw [Bool.and_eq_true] at hfits
    rw [s'.action_apply.function, Ty.compatible, Bool.and_eq_true]
    have hparams := ((extends_bind params.2 r t).trans hext)
    exact ⟨ihparams hshape.1 hfits.1 s' hparams, ihret hshape.2 hfits.2 s' hext⟩
  case case10 =>
    intro s ps r as t hdiffer hshape
    rw [Ty.linesUp, Bool.and_eq_true] at hshape
    exact absurd (Ty.length_eq_of_linesUpAll hshape.1) hdiffer
  case case11 =>
    intro p s actual hparam hoptional _ harray hgeneric htuple hfunction hshape _ s' _
    by_cases hany : actual = .any
    · rw [hany]
      exact Ty.compatible_any _
    · rw [Ty.linesUp] at hshape
      · exact s'.compatible_apply_of_closed hshape
      all_goals grind
  case case12 =>
    intro s p ps a as first ihfirst ihrest hshape hfits s' hext
    rw [bindAll, Bool.and_eq_true] at hfits
    rw [bindAll] at hext
    rw [Ty.linesUpAll, Bool.and_eq_true] at hshape
    rw [List.map_cons, Ty.compatibleAll, Bool.and_eq_true]
    have hfirst := ((extends_bindAll first.2 ps as).trans hext)
    exact ⟨ihfirst hshape.1 hfits.1 s' hfirst, ihrest hshape.2 hfits.2 s' hext⟩
  case case13 =>
    intro ps s as hends hshape _ s' _
    match ps, as with
    | [], [] => rw [List.map_nil, Ty.compatibleAll]
    | p :: ps, a :: as => exact (hends p ps a as rfl rfl).elim
    | [], _ :: _ => simp [Ty.linesUpAll] at hshape
    | _ :: _, [] => simp [Ty.linesUpAll] at hshape

theorem compatible_of_bind {s s' : Subst} {p a : Ty} (hshape : p.linesUp a = true)
    (hfits : (s.bind p a).1 = true) (hext : (s.bind p a).2.Extends s') :
    (s'.apply p).compatible a = true :=
  compatible_of_bind_and_bindAll.1 s p a hshape hfits s' hext

/-- The same for an argument. -/
theorem accepts_of_bind {s s' : Subst} : ∀ {p a : Ty}, p.linesUpAsArgument a = true →
    (s.bind p a).1 = true → (s.bind p a).2.Extends s' → (s'.apply p).accepts a = true := by
  intro p a hshape hfits hext
  fun_induction Ty.linesUpAsArgument p a with
  | case1 p a | case3 p a _ _ =>
    exact Ty.accepts_of_compatible (compatible_of_bind hshape hfits hext)
  | case2 p a hplain ih =>
    rw [bind] at hfits hext
    · rw [s'.action_apply.optional, Ty.accepts, ih hshape hfits hext, Bool.or_true]
    all_goals exact hplain

end Subst

end UnitAnalysis

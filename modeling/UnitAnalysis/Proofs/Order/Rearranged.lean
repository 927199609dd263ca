import Mathlib.Data.List.Perm.Basic

/-!
# Rearranging steps

Two lists of steps are rearrangements of each other when the one comes from the other by exchanging
neighbours that are free to change places. When exchanging two such neighbours makes no difference
to the states that a run can reach, then no rearrangement does (`Rearranged.foldl`). A permutation
is a rearrangement when it keeps the order of the steps that are not free among each other
(`Rearranged.of_perm`).
-/

set_option autoImplicit false

namespace UnitAnalysis

variable {ι : Type}

/-- Two lists differ in the order of neighbours that are free to change places. -/
inductive Rearranged (free : ι → ι → Prop) : List ι → List ι → Prop where
  | nil : Rearranged free [] []
  | cons (a : ι) {l m : List ι} (h : Rearranged free l m) : Rearranged free (a :: l) (a :: m)
  | swap {a b : ι} (l : List ι) (h : free a b) : Rearranged free (a :: b :: l) (b :: a :: l)
  | trans {l m n : List ι} (h : Rearranged free l m) (h' : Rearranged free m n) :
      Rearranged free l n

namespace Rearranged

variable {free : ι → ι → Prop}

/-- Nothing moves. -/
theorem refl (l : List ι) : Rearranged free l l := by
  induction l with
  | nil => exact .nil
  | cons a l ih => exact .cons a ih

/-- More may move. -/
theorem imp {free' : ι → ι → Prop} (hfree : ∀ {a b}, free a b → free' a b) {l m : List ι}
    (h : Rearranged free l m) : Rearranged free' l m := by
  induction h with
  | nil => exact .nil
  | cons a _ ih => exact .cons a ih
  | swap l hab => exact .swap l (hfree hab)
  | trans _ _ ih ih' => exact .trans ih ih'

/-- A step comes to the front when it may change places with all steps before it. -/
theorem to_front {a : ι} (front rest : List ι) (h : ∀ b ∈ front, free a b) :
    Rearranged free (a :: (front ++ rest)) (front ++ a :: rest) := by
  induction front with
  | nil => exact .refl _
  | cons b front ih =>
    have hb : free a b := h b List.mem_cons_self
    have hfront := ih fun c hc => h c (List.mem_cons_of_mem _ hc)
    exact .trans (.swap _ hb) (.cons b hfront)

/-- The first step of a list stands in a permutation of the list behind steps that it may change
places with, when the marked steps keep their order. -/
theorem exists_front {marked : ι → Bool} {a : ι} {l m : List ι} (hperm : (a :: l).Perm m)
    (hmarked : (a :: l).filter marked = m.filter marked) :
    ∃ front rest, m = front ++ a :: rest ∧ l.Perm (front ++ rest) ∧
      l.filter marked = (front ++ rest).filter marked ∧
      ∀ b ∈ front, ¬ (marked a = true ∧ marked b = true) := by
  obtain ⟨front, rest, rfl, hfirst⟩ := List.eq_append_cons_of_mem (hperm.subset List.mem_cons_self)
  have hrest : l.Perm (front ++ rest) := (hperm.trans List.perm_middle).cons_inv
  refine ⟨front, rest, rfl, hrest, ?_⟩
  rw [List.filter_append, List.filter_cons, List.filter_cons] at hmarked
  rw [List.filter_append]
  by_cases ha : marked a = true
  · rw [if_pos ha, if_pos ha] at hmarked
    -- A marked step before `a` would be the first marked one of the list.
    have hfront : front.filter marked = [] := by
      cases hcase : front.filter marked with
      | nil => rfl
      | cons b bs =>
        rw [hcase] at hmarked
        have hb : b ∈ front := List.mem_of_mem_filter (hcase ▸ List.mem_cons_self)
        exact absurd ((List.cons.inj hmarked).1 ▸ hb) hfirst
    rw [hfront] at hmarked ⊢
    refine ⟨(List.cons.inj hmarked).2, fun b hb hboth => ?_⟩
    exact List.filter_eq_nil_iff.1 hfront b hb hboth.2
  · rw [if_neg ha, if_neg ha] at hmarked
    exact ⟨hmarked, fun b _ hboth => ha hboth.1⟩

/-- A permutation is a rearrangement when it keeps the order of the marked steps and any two steps
of which one is not marked are free to change places. -/
theorem of_perm {marked : ι → Bool} {l m : List ι} (hperm : l.Perm m)
    (hmarked : l.filter marked = m.filter marked)
    (hfree : l.Pairwise fun a b => ¬ (marked a = true ∧ marked b = true) → free a b) :
    Rearranged free l m := by
  induction l generalizing m with
  | nil =>
    rw [List.nil_perm.1 hperm]
    exact .nil
  | cons a l ih =>
    obtain ⟨front, rest, rfl, hrest, hkept, happart⟩ := exists_front hperm hmarked
    obtain ⟨ha, hl⟩ := List.pairwise_cons.1 hfree
    have hfront : ∀ b ∈ front, free a b := by
      intro b hb
      exact ha b (hrest.mem_iff.2 (List.mem_append_left _ hb)) (happart b hb)
    exact .trans (.cons a (ih hrest hkept hl)) (to_front front rest hfront)

/-- Rearranged steps lead from states that are the same to states that are the same. -/
theorem foldl {σ : Type} {step : σ → ι → σ} {Same : σ → σ → Prop}
    (hsymm : ∀ {s t}, Same s t → Same t s) (htrans : ∀ {s t u}, Same s t → Same t u → Same s u)
    (hstep : ∀ a {s t}, Same s t → Same (step s a) (step t a))
    (hswap : ∀ {a b}, free a b → ∀ {s}, Same s s → Same (step (step s a) b) (step (step s b) a))
    {l m : List ι} (h : Rearranged free l m) {s t : σ} (hst : Same s t) :
    Same (l.foldl step s) (m.foldl step t) := by
  have hrun : ∀ (l : List ι) {s t : σ}, Same s t → Same (l.foldl step s) (l.foldl step t) := by
    intro l
    induction l with
    | nil => exact fun hst => hst
    | cons a l ih => exact fun hst => ih (hstep a hst)
  induction h generalizing s t with
  | nil => exact hst
  | cons a _ ih => exact ih (hstep a hst)
  | @swap a b l hfree =>
    have hs : Same s s := htrans hst (hsymm hst)
    exact htrans (hrun l (hswap hfree hs)) (hrun (b :: a :: l) hst)
  | trans _ _ ih ih' => exact htrans (ih hst) (ih' (htrans (hsymm hst) hst))

end Rearranged

/-- A loop goes through the states. -/
theorem forM_run {σ : Type} (step : ι → StateM σ Unit) (steps : List ι) (s : σ) :
    ((steps.forM step).run s).2 = steps.foldl (fun s a => ((step a).run s).2) s := by
  induction steps generalizing s with
  | nil => rfl
  | cons a steps ih => exact ih _

end UnitAnalysis

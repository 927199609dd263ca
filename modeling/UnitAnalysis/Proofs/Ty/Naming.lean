import UnitAnalysis.Proofs.Ty.Occurrences
import UnitAnalysis.Proofs.Ty.Unify

/-!
# Types of one name

A name does not tell which kind of leaf stands behind it, and there is one more thing that it does
not tell. An optional function is put in brackets, and so is what a tuple holds, so an optional of a
tuple with nothing but a function in it has the name of the optional function. `Ty.collapse` takes
such brackets away. The main result says that there are no other types of one name.
-/

set_option autoImplicit false

namespace UnitAnalysis

namespace Ty

/-! ## Brackets that are taken away -/

/-- The function in the brackets of a tuple that holds nothing else. Every other type stays as it
is. -/
def unbracket : Ty → Ty
  | tuple [function params ret] => function params ret
  | t => t

mutual

/-- A type with the brackets taken away that stand around a function and directly in an optional,
at every depth. -/
def collapse : Ty → Ty
  | prim p => prim p
  | named n => named n
  | generic base args => generic base (collapseAll args)
  | optional inner => optional inner.collapse.unbracket
  | array element => array element.collapse
  | tuple elements => tuple (collapseAll elements)
  | function params ret => function (collapseAll params) ret.collapse
  | param n bounds => param n bounds

/-- Several types with these brackets taken away. -/
def collapseAll : List Ty → List Ty
  | [] => []
  | t :: ts => t.collapse :: collapseAll ts

end

theorem isFunction_collapse (t : Ty) : t.collapse.isFunction = t.isFunction := by
  cases t <;> rfl

theorem isFunction_byName (t : Ty) : t.byName.isFunction = t.isFunction := by
  cases t <;> rfl

theorem unbracket_of_isFunction {t : Ty} (h : t.isFunction = true) : t.unbracket = t := by
  cases t with
  | function params ret => rfl
  | _ => cases h

theorem unbracket_tuple_of_isFunction {t : Ty} (h : t.isFunction = true) :
    (tuple [t]).unbracket = t := by
  cases t with
  | function params ret => rfl
  | _ => cases h

/-! ## Names do not tell them -/

theorem name_optional_congr {t u : Ty} (hname : t.name = u.name)
    (hfunction : t.isFunction = u.isFunction) : (optional t).name = (optional u).name := by
  rw [name, name, hname, hfunction]

/-- The brackets of a tuple look like those that an optional puts around a function. -/
theorem name_optional_unbracket (t : Ty) : (optional t.unbracket).name = (optional t).name := by
  fun_cases unbracket t with
  | case1 params ret => simp [name, names, isFunction, String.append_assoc]
  | case2 => rfl

mutual

theorem name_collapse : ∀ t : Ty, t.collapse.name = t.name
  | prim _ | named _ | param _ _ => by rw [collapse]
  | generic _ args => by rw [collapse, name, name, names_collapseAll args]
  | optional inner => by
    rw [collapse, name_optional_unbracket]
    exact name_optional_congr (name_collapse inner) (isFunction_collapse inner)
  | array element => by rw [collapse, name, name, name_collapse element]
  | tuple elements => by rw [collapse, name, name, names_collapseAll elements]
  | function params ret => by
    rw [collapse, name, name, names_collapseAll params, name_collapse ret]

theorem names_collapseAll : ∀ ts : List Ty, names (collapseAll ts) = names ts
  | [] => by rw [collapseAll]
  | t :: ts => by rw [collapseAll, names, names, name_collapse t, names_collapseAll ts]

end

mutual

theorem name_byName : ∀ t : Ty, t.byName.name = t.name
  | prim _ | param _ _ => by rw [byName, name, name]
  | named _ => by rw [byName]
  | generic _ args => by rw [byName, name, name, names_byNameAll args]
  | optional inner => by
    rw [byName]
    exact name_optional_congr (name_byName inner) (isFunction_byName inner)
  | array element => by rw [byName, name, name, name_byName element]
  | tuple elements => by rw [byName, name, name, names_byNameAll elements]
  | function params ret => by rw [byName, name, name, names_byNameAll params, name_byName ret]

theorem names_byNameAll : ∀ ts : List Ty, names (byNameAll ts) = names ts
  | [] => by rw [byNameAll]
  | t :: ts => by rw [byNameAll, names, names, name_byName t, names_byNameAll ts]

end

/-! ## Names tell all else -/

mutual

/-- Whether the brackets of optional functions are read as tuples does not matter once such brackets
are taken away. -/
theorem collapse_shown : ∀ t : Ty, t.shown.collapse = t.byName.collapse
  | prim _ | named _ | param _ _ => by rw [shown, byName]
  | generic _ args => by rw [shown, byName, collapse, collapse, collapseAll_shownAll args]
  | optional inner => by
    rw [shown, byName, collapse, collapse, optional.injEq]
    split
    · next hfunction =>
        -- The brackets of the optional function were read as a tuple, and are taken away again.
        have hinner : inner.byName.collapse.isFunction = true := by
          rw [isFunction_collapse, isFunction_byName, hfunction]
        rw [collapse, collapseAll, collapseAll, collapse_shown inner,
          unbracket_tuple_of_isFunction hinner, unbracket_of_isFunction hinner]
    · rw [collapse_shown inner]
  | array element => by rw [shown, byName, collapse, collapse, collapse_shown element]
  | tuple elements => by rw [shown, byName, collapse, collapse, collapseAll_shownAll elements]
  | function params ret => by
    rw [shown, byName, collapse, collapse, collapseAll_shownAll params, collapse_shown ret]

theorem collapseAll_shownAll : ∀ ts : List Ty,
    collapseAll (shownAll ts) = collapseAll (byNameAll ts)
  | [] => by rw [shownAll, byNameAll]
  | t :: ts => by
    rw [shownAll, byNameAll, collapseAll, collapseAll, collapse_shown t, collapseAll_shownAll ts]

end

/-- An optional of a tuple that holds a function and nothing else is a part of a type. -/
def HasBracketedFunction (t : Ty) : Prop :=
  ∃ params ret, (optional (tuple [function params ret])).Part t

theorem HasBracketedFunction.lift {t u : Ty} (h : t.HasBracketedFunction)
    (hparts : ∀ {v : Ty}, v.Part t → v.Part u) : u.HasBracketedFunction := by
  obtain ⟨params, ret, hpart⟩ := h
  exact ⟨params, ret, hparts hpart⟩

theorem exists_of_byName_eq {t ret : Ty} {params : List Ty}
    (h : t.byName = tuple [function params ret]) : ∃ ps r, t = tuple [function ps r] := by
  cases t with
  | tuple elements =>
    cases elements with
    | nil => cases h
    | cons first rest =>
      rw [byName, byNameAll, tuple.injEq, List.cons.injEq] at h
      obtain ⟨hfirst, hrest⟩ := h
      cases rest with
      | nil =>
        cases first with
        | function ps r => exact ⟨ps, r, rfl⟩
        | _ => cases hfirst
      | cons _ _ => cases hrest
  | _ => cases h

/-- Only a tuple with nothing but a function in it has brackets to take away. -/
theorem unbracket_byName {t : Ty} (h : ∀ params ret, t ≠ tuple [function params ret]) :
    t.byName.unbracket = t.byName := by
  rw [unbracket]
  intro params ret heq
  obtain ⟨ps, r, rfl⟩ := exists_of_byName_eq heq
  exact h ps r rfl

mutual

/-- Where there is no such optional, there is nothing to take away. -/
theorem collapse_byName_eq_self : ∀ {t : Ty}, ¬ t.HasBracketedFunction →
    t.byName.collapse = t.byName
  | prim _, _ | named _, _ | param _ _, _ => by rw [byName, collapse]
  | generic _ args, h => by
    have hargs : ∀ a ∈ args, ¬ a.HasBracketedFunction :=
      fun _ ha hfound => h (hfound.lift (.generic ha))
    rw [byName, collapse, collapseAll_byNameAll_eq_self hargs]
  | optional inner, h => by
    have hinner : ¬ inner.HasBracketedFunction := fun hfound => h (hfound.lift .optional)
    have hplain : ∀ params ret, inner ≠ tuple [function params ret] := by
      rintro params ret rfl
      exact h ⟨params, ret, .refl _⟩
    rw [byName, collapse, collapse_byName_eq_self hinner, unbracket_byName hplain]
  | array element, h => by
    have helement : ¬ element.HasBracketedFunction := fun hfound => h (hfound.lift .array)
    rw [byName, collapse, collapse_byName_eq_self helement]
  | tuple elements, h => by
    have helements : ∀ a ∈ elements, ¬ a.HasBracketedFunction :=
      fun _ ha hfound => h (hfound.lift (.tuple ha))
    rw [byName, collapse, collapseAll_byNameAll_eq_self helements]
  | function params ret, h => by
    have hparams : ∀ a ∈ params, ¬ a.HasBracketedFunction :=
      fun _ ha hfound => h (hfound.lift (.functionParam ha))
    have hret : ¬ ret.HasBracketedFunction := fun hfound => h (hfound.lift .functionResult)
    rw [byName, collapse, collapseAll_byNameAll_eq_self hparams, collapse_byName_eq_self hret]

theorem collapseAll_byNameAll_eq_self : ∀ {ts : List Ty}, (∀ t ∈ ts, ¬ t.HasBracketedFunction) →
    collapseAll (byNameAll ts) = byNameAll ts
  | [], _ => by rw [byNameAll, collapseAll]
  | t :: ts, h => by
    obtain ⟨hfirst, hrest⟩ := List.forall_mem_cons.1 h
    rw [byNameAll, collapseAll, collapse_byName_eq_self hfirst,
      collapseAll_byNameAll_eq_self hrest]

end

/-- **Names identify types.** Two types whose names are identifiers are shown by one name exactly
when they are the same once leaves count by their names alone and an optional of a tuple with
nothing but a function in it counts as the optional of that function, at every depth. So two types
of one name that differ by more than the kinds of their leaves have such an optional in one of them.
-/
theorem name_eq_iff_collapse_eq (a b : Ty) (ha : a.isWellNamed = true)
    (hb : b.isWellNamed = true) :
    (a.name = b.name ↔ a.byName.collapse = b.byName.collapse) ∧
    (a.name = b.name → a.byName ≠ b.byName →
      a.HasBracketedFunction ∨ b.HasBracketedFunction) := by
  have hiff : a.name = b.name ↔ a.byName.collapse = b.byName.collapse := by
    constructor
    · intro h
      rw [← collapse_shown, ← collapse_shown, shown_eq_of_name_eq ha hb h]
    · intro h
      calc a.name = a.byName.collapse.name := by rw [name_collapse, name_byName]
        _ = b.byName.collapse.name := by rw [h]
        _ = b.name := by rw [name_collapse, name_byName]
  refine ⟨hiff, fun h hne => ?_⟩
  by_contra hnone
  rw [not_or] at hnone
  have hcollapse := hiff.1 h
  rw [collapse_byName_eq_self hnone.1, collapse_byName_eq_self hnone.2] at hcollapse
  exact hne hcollapse

/-- A map to optional functions, each of them in a tuple of its own. -/
def bracketedHandlers : Ty :=
  generic "Map" [int, array (optional (tuple [function [bounded "T" ["Show"]] (optional bool)]))]

/-- A map to optional functions. -/
def plainHandlers : Ty :=
  generic "Map" [named "Int", array (optional (function [named "T"] (optional bool)))]

/-- A map to functions with results that are optional once more. -/
def doubtfulHandlers : Ty :=
  generic "Map" [int, array (function [named "T"] (optional (optional bool)))]

/-- The first two are of one name, which is not the name of the third. -/
theorem name_eq_handlers :
    bracketedHandlers.isWellNamed = true ∧ plainHandlers.isWellNamed = true ∧
    bracketedHandlers.name = plainHandlers.name ∧
    bracketedHandlers.byName ≠ plainHandlers.byName ∧
    (bracketedHandlers.HasBracketedFunction ∨ plainHandlers.HasBracketedFunction) ∧
    doubtfulHandlers.isWellNamed = true ∧ plainHandlers.name ≠ doubtfulHandlers.name := by
  have hbracketed : bracketedHandlers.isWellNamed = true := by decide +kernel
  have hplain : plainHandlers.isWellNamed = true := by decide +kernel
  have hdoubtful : doubtfulHandlers.isWellNamed = true := by decide +kernel
  have hone := name_eq_iff_collapse_eq bracketedHandlers plainHandlers hbracketed hplain
  have htwo := name_eq_iff_collapse_eq plainHandlers doubtfulHandlers hplain hdoubtful
  have hname : bracketedHandlers.name = plainHandlers.name := hone.1.2 (by decide +kernel)
  have hshape : bracketedHandlers.byName ≠ plainHandlers.byName := by decide +kernel
  refine ⟨hbracketed, hplain, hname, hshape, hone.2 hname hshape, hdoubtful, fun h => ?_⟩
  exact absurd (htwo.1.1 h) (by decide +kernel)

end Ty

end UnitAnalysis

import UnitAnalysis.Proofs.Generic.Judgements
import UnitAnalysis.Proofs.Ty.Occurrences

/-!
# What the type of a call mentions

The type of a call is the declared result with something put in for type parameters. What is put in
can be read off the occurrences of the type parameters in the arguments: the first argument that
says something about a parameter decides, and a parameter of the callee about which none says
anything becomes `Any`. Nothing is put in twice, so type parameters of the caller that have the name
of one of the callee are left alone.
-/

set_option autoImplicit false

namespace UnitAnalysis

namespace CallTarget

/-- The type parameters that a call may choose. -/
def own (target : CallTarget) : List String :=
  target.typeParams.filterMap Ty.paramName?

/-- What the arguments say about a type parameter: the first thing that is not `Any`. Arguments
without a parameter, and parameters without an argument, say nothing. -/
def said (target : CallTarget) (args : List Argument) (name : String) : Option Ty :=
  Subst.firstKnown name (Ty.occurrencesAll target.params (args.map Argument.ty))

/-- The type parameters that stand in the type of a call for one in the declared result: those of
what the arguments say about it; otherwise none when the call may choose it, and else itself. -/
def standIns (target : CallTarget) (args : List Argument) (name : String) : List String :=
  match target.said args name with
  | some t => t.paramNames
  | none => if name ∈ target.own then [] else [name]

end CallTarget

namespace Check

/-- The arguments are walked along like the components of a tuple. -/
theorem bindArguments_eq_bindAll (s : Subst) (params : List Ty) (args : List Argument) :
    bindArguments s params args = (s.bindAll params (args.map Argument.ty)).2 := by
  fun_induction bindArguments s params args with
  | case1 s p params a args ih => rw [ih, List.map_cons, Subst.bindAll]
  | case2 s params args hends =>
    rw [Subst.bindAll]
    rintro p params a args rfl hmap
    obtain ⟨b, rest, rfl, -, -⟩ := List.map_eq_cons_iff.1 hmap
    exact hends p _ b rest rfl rfl

/-- Arguments say what a parameter is. -/
theorem get?_bindArguments (target : CallTarget) (args : List Argument) (name : String) :
    (bindArguments {} target.params args).get? name = target.said args name := by
  have hempty : ({} : Subst).get? name = none := rfl
  rw [bindArguments_eq_bindAll, Subst.bind_and_bindAll_eq_bindEach.2, Subst.get?_bindEach, hempty,
    Option.none_or, CallTarget.said]

/-- The closing step keeps what is there, and gives `Any` to the parameters that have no type. -/
theorem get?_closeParams (r : Registry) (callee : String) (span : Span) (s : Subst)
    (typeParams : List Ty) (name : String) :
    (closeParams r callee span s typeParams).1.get? name =
      (s.get? name).or (if name ∈ typeParams.filterMap Ty.paramName? then some .any else none) := by
  fun_induction closeParams r callee span s typeParams with
  | case1 s => simp
  | case2 s other bounds rest found hget s' more hrest ih =>
    rw [hrest] at ih
    rw [ih]
    by_cases hother : name = other
    · subst hother
      simp [hget]
    · simp [Ty.paramName?, hother]
  | case3 s other bounds rest hget ih =>
    rw [ih]
    by_cases hother : name = other
    · subst hother
      simp [s.get?_insert_self, hget, Ty.paramName?]
    · have hkept : (s.insert other .any).get? name = s.get? name :=
        Table.get?_insert_of_ne s.bindings (Ne.symm hother) .any
      simp [hkept, Ty.paramName?, hother]
  | case4 s t rest hplain ih =>
    have hname : t.paramName? = none := by
      cases t with
      | param other bounds => exact absurd rfl (hplain other bounds)
      | _ => rfl
    simp [ih, hname]

/-- The type parameters of the type of a call are those that stand in for the type parameters of the
declared result, from left to right. -/
theorem paramNames_applyTarget (r : Registry) (target : CallTarget) (args : List Argument)
    (span : Span) :
    (applyTarget r target args span).1.paramNames =
      target.ret.paramNames.flatMap (target.standIns args) := by
  simp only [applyTarget, Subst.paramNames_apply]
  refine List.flatMap_congr fun name _ => ?_
  rw [get?_closeParams, get?_bindArguments, CallTarget.standIns, CallTarget.own]
  cases target.said args name with
  | some t => rfl
  | none =>
    split
    · rfl
    · rfl

/-- **The type of a call mentions only what the caller supplied.** Its type parameters are, from
left to right, those that stand in for the type parameters of the declared result. So each of them
occurs in the type of an argument, or it occurs in the declared result and is none that the call may
choose. There may be too few or too many arguments, they may contradict one another, and they may
have type parameters with the names of those of the callee. -/
theorem call_mentions_only_supplied (r : Registry) (target : CallTarget) (args : List Argument)
    (span : Span) :
    let result := (applyTarget r target args span).1
    result.paramNames = target.ret.paramNames.flatMap (target.standIns args) ∧
    ∀ name ∈ result.paramNames,
      (∃ a ∈ args, name ∈ a.ty.paramNames) ∨
        (name ∈ target.ret.paramNames ∧ name ∉ target.own) :=
  ⟨paramNames_applyTarget r target args span, fun _ => mem_paramNames_applyTarget⟩

/-- A function with three type parameters of its own and one, `V`, of the class around it. Nothing
says what `W` is. -/
def rotate : CallTarget where
  name := "rotate"
  params := [.array (.bounded "T" []), .tuple [.bounded "U" [], .optional (.bounded "T" [])]]
  ret := .generic "Map" [.bounded "U" [], .tuple [.bounded "T" [], .bounded "V" [], .bounded "W" []]]
  typeParams := [.bounded "T" [], .bounded "U" [], .bounded "W" []]

/-- `rotate` calls itself with `T` and `U` the other way round, and with a number where `T` is `U`
already. -/
theorem call_mentions_rotate :
    let args : List Argument :=
      [⟨.array (.bounded "U" []), {}⟩, ⟨.tuple [.bounded "T" [], .int], {}⟩]
    let result := (applyTarget {} rotate args {}).1
    result = .generic "Map" [.bounded "T" [], .tuple [.bounded "U" [], .bounded "V" [], .any]] ∧
    result.paramNames = ["T", "U", "V"] ∧
    result.paramNames = rotate.ret.paramNames.flatMap (rotate.standIns args) ∧
    ∀ name ∈ result.paramNames,
      (∃ a ∈ args, name ∈ a.ty.paramNames) ∨
        (name ∈ rotate.ret.paramNames ∧ name ∉ rotate.own) :=
  ⟨by decide, by decide, call_mentions_only_supplied {} rotate _ {}⟩

end Check

end UnitAnalysis

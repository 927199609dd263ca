import UnitAnalysis.Check.Call
import UnitAnalysis.Proofs.Ty.Bind

/-!
# Arguments that are accepted

A call without findings has as many arguments as parameters, and every argument that was judged is
accepted by its parameter under the types that the call ends up with. An argument is judged when its
parameter is closed by what the arguments say; one that is not judged is accepted where its shape
lines up with that of its parameter and every type parameter on the way fits. Without that it is
neither reported nor accepted.
-/

set_option autoImplicit false

namespace UnitAnalysis

/-- The types that the type parameters of a call have in the end. -/
def CallTarget.chosen (target : CallTarget) (r : Registry) (args : List Argument) (span : Span) :
    Subst :=
  (Check.closeParams r target.name span (Check.bindArguments {} target.params args)
    target.typeParams).1

namespace Check

/-- Arguments keep what is known. -/
theorem extends_bindArguments (s : Subst) (params : List Ty) (args : List Argument) :
    s.Extends (bindArguments s params args) := by
  fun_induction bindArguments s params args with
  | case1 s p params a args ih => exact (s.extends_bind p a.ty).trans ih
  | case2 => exact .refl _

/-- What the arguments say in the end extends what they say up to some place, and what the argument
at that place adds to it. -/
theorem bindArguments_extends_at {s : Subst} {params : List Ty} {args : List Argument} {i : Nat}
    {p : Ty} {a : Argument} (hp : params[i]? = some p) (ha : args[i]? = some a) :
    ((bindArguments s (params.take i) (args.take i)).bind p a.ty).2.Extends
      (bindArguments s params args) := by
  induction i generalizing s params args with
  | zero =>
    obtain ⟨params, rfl⟩ : ∃ rest, params = p :: rest := by
      cases params <;> simp_all
    obtain ⟨args, rfl⟩ : ∃ rest, args = a :: rest := by
      cases args <;> simp_all
    exact extends_bindArguments _ params args
  | succ i ih =>
    match params, args with
    | q :: params, b :: args =>
      simp only [List.getElem?_cons_succ] at hp ha
      simp only [List.take_succ_cons, bindArguments]
      exact ih hp ha

/-- Closing keeps what is known. -/
theorem extends_closeParams (r : Registry) (callee : String) (span : Span) (s : Subst)
    (typeParams : List Ty) : s.Extends (closeParams r callee span s typeParams).1 := by
  fun_induction closeParams r callee span s typeParams with
  | case1 s => exact .refl s
  | case2 s name bounds rest found hget s' more hrest ih =>
    rw [hrest] at ih
    exact ih
  | case3 s name bounds rest hget ih => exact (Subst.extends_insert hget .any).trans ih
  | case4 s t rest _ ih => exact ih

/-- Nothing is wrong with the arguments just when every one that is judged is accepted. -/
theorem argumentFindings_eq_nil_iff (callee : String) (s : Subst) (position : Nat)
    (params : List Ty) (args : List Argument) :
    argumentFindings callee s position params args = [] ↔
      ∀ (i : Nat) (p : Ty) (a : Argument), params[i]? = some p → args[i]? = some a →
        (s.apply p).hasParams = false → (s.apply p).accepts a.ty = true := by
  fun_induction argumentFindings callee s position params args with
  | case1 position p params a args expected here ih =>
    rw [List.append_eq_nil_iff, ih]
    constructor
    · rintro ⟨hhere, hrest⟩ i q b hq hb hclosed
      cases i with
      | zero =>
        cases hq
        cases hb
        cases haccepts : (s.apply p).accepts a.ty with
        | true => rfl
        | false => simp [here, expected, hclosed, haccepts] at hhere
      | succ i => exact hrest i q b hq hb hclosed
    · intro hall
      refine ⟨?_, fun i q b hq hb => hall (i + 1) q b hq hb⟩
      have hfirst := hall 0 p a rfl rfl
      cases hclosed : expected.hasParams with
      | true => simp [here, hclosed]
      | false => simp [here, expected, hfirst hclosed]
  | case2 params position args hends =>
    simp only [true_iff]
    intro i p a hp ha
    match params, args with
    | q :: params, b :: args => exact (hends q params b args rfl rfl).elim

/-- A call without findings: the result is read under the chosen types, there are as many arguments
as parameters, and an argument is accepted when it was judged, and also when its shape lines up with
its parameter and every type parameter on the way fits what it got from the arguments before. -/
theorem accepts_of_no_findings {r : Registry} {target : CallTarget} {args : List Argument}
    {span : Span} (h : (applyTarget r target args span).2 = []) :
    (applyTarget r target args span).1 = (target.chosen r args span).apply target.ret ∧
    target.params.length = args.length ∧
    ∀ (i : Nat) (p : Ty) (a : Argument), target.params[i]? = some p → args[i]? = some a →
      ((bindArguments {} target.params args).apply p).hasParams = false ∨
        p.linesUpAsArgument a.ty = true ∧
          ((bindArguments {} (target.params.take i) (args.take i)).bind p a.ty).1 = true →
      ((target.chosen r args span).apply p).accepts a.ty = true := by
  simp only [applyTarget, List.append_eq_nil_iff] at h
  obtain ⟨⟨hcount, harguments⟩, -⟩ := h
  have hext : (bindArguments {} target.params args).Extends (target.chosen r args span) :=
    extends_closeParams r target.name span _ target.typeParams
  refine ⟨rfl, ?_, ?_⟩
  · unfold countFindings at hcount
    split at hcount
    · assumption
    · cases hcount
  · rintro i p a hp ha (hclosed | ⟨hshape, hfits⟩)
    · have hjudged := (argumentFindings_eq_nil_iff ..).1 harguments i p a hp ha hclosed
      rwa [hext.apply_eq hclosed]
    · exact Subst.accepts_of_bind hshape hfits ((bindArguments_extends_at hp ha).trans hext)

/-- A function of two type parameters, one of which the second argument leaves open. -/
def pairTarget : CallTarget where
  name := "pair"
  params := [.bounded "T" [], .optional (.tuple [.bounded "T" [], .bounded "U" []])]
  ret := .bounded "T" []
  typeParams := [.bounded "T" [], .bounded "U" []]

/-- The second argument is not judged, and it is accepted, because it lines up. -/
theorem accepts_of_no_findings_pair :
    (applyTarget {} pairTarget [⟨.int, {}⟩, ⟨.tuple [.int, .any], {}⟩] {}).2 = [] ∧
    ((pairTarget.chosen {} [⟨.int, {}⟩, ⟨.tuple [.int, .any], {}⟩] {}).apply
      (.optional (.tuple [.bounded "T" [], .bounded "U" []]))).accepts (.tuple [.int, .any]) =
        true := by
  have hclean : (applyTarget {} pairTarget [⟨.int, {}⟩, ⟨.tuple [.int, .any], {}⟩] {}).2 = [] := by
    decide
  have haccepts := (accepts_of_no_findings hclean).2.2 1 _ ⟨.tuple [.int, .any], {}⟩ rfl rfl
  exact ⟨hclean, haccepts (.inr (by decide))⟩

/-- A function of lists of anything, called `first`. -/
def firstTarget : CallTarget where
  name := "first"
  params := [.array (.bounded "T" [])]
  ret := .bounded "T" []
  typeParams := [.bounded "T" []]

/-- A number where a list of anything is expected is not reported, because the walk finds no list
and says nothing about the elements, and a parameter that is still open is not judged. The parameter
that the call ends up with does not accept the number. -/
theorem number_for_list_not_reported :
    (applyTarget {} firstTarget [⟨.int, {}⟩] {}).2 = [] ∧
    (firstTarget.chosen {} [⟨.int, {}⟩] {}).apply (.array (.bounded "T" [])) = .array .any ∧
    (Ty.array .any).accepts .int = false := by
  decide

end Check

end UnitAnalysis

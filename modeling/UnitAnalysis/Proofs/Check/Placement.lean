import UnitAnalysis.Proofs.Diagnostic.Reports

/-!
# Problems of place

Most problems are about types alone. Some hang on where a construct stands: a name that nothing
around it binds, a construct of concurrency in code that is not asynchronous, a `return` outside of
all functions, and a result that the function around it does not declare. `placement` keeps these.
They have codes of their own, so whoever reports other codes only finds no problem of place.
-/

set_option autoImplicit false

namespace UnitAnalysis

/-- A problem that hangs on where a construct stands. -/
def Problem.isPlacement : Problem → Bool
  | unresolvedName _ => true
  | outsideAsync _ _ => true
  | returnOutside => true
  | returnMismatch _ _ _ => true
  | asyncReturnMismatch _ _ _ _ => true
  | _ => false

/-- The findings that hang on where constructs stand. -/
def placement (found : List Finding) : List Finding :=
  found.filter fun f => f.problem.isPlacement

/-- Reports of a kind that hangs on places are found among the findings that do. -/
theorem filter_placement {p : Finding → Bool}
    (h : ∀ f : Finding, p f = true → f.problem.isPlacement = true) (found : List Finding) :
    (placement found).filter p = found.filter p := by
  rw [placement, List.filter_filter]
  refine List.filter_congr fun f _ => ?_
  cases hf : p f with
  | false => rfl
  | true => rw [h f hf, Bool.true_and]

@[simp] theorem placement_append (found more : List Finding) :
    placement (found ++ more) = placement found ++ placement more :=
  List.filter_append ..

/-- Other findings are left out. -/
theorem placement_cons_of_not {f : Finding} (h : f.problem.isPlacement = false)
    (found : List Finding) : placement (f :: found) = placement found :=
  List.filter_cons_of_neg (by simp [h])

/-- Nothing about places. -/
theorem placement_eq_nil_iff {found : List Finding} :
    placement found = [] ↔ ∀ f ∈ found, f.problem.isPlacement = false := by
  simp [placement, List.filter_eq_nil_iff]

/-- The codes of the problems that hang on where a construct stands. -/
def Code.ofPlaces : List Code :=
  [.unresolvedIdentifier, .awaitOutsideAsync, .concurrentOutsideAsync, .raceOutsideAsync,
    .timeoutOutsideAsync, .returnOutsideFunction, .returnTypeMismatch, .asyncReturnTypeMismatch]

/-- The codes of such findings. -/
theorem Problem.code_mem_ofPlaces {p : Problem} (h : p.isPlacement = true) :
    p.code ∈ Code.ofPlaces := by
  cases p with
  | unresolvedName _ => simp [Code.ofPlaces]
  | outsideAsync form _ => cases form <;> simp [Code.ofPlaces]
  | returnOutside | returnMismatch _ _ _ | asyncReturnMismatch _ _ _ _ => simp [Code.ofPlaces]
  | _ => cases h

/-- A judgement that reports other codes finds no problem of place. -/
theorem Reports.placement_eq_nil {codes : List Code} {found : List Finding}
    (h : Reports codes found) (hcodes : ∀ c ∈ codes, c ∉ Code.ofPlaces) :
    placement found = [] := by
  rw [placement_eq_nil_iff]
  intro f hf
  rw [← Bool.not_eq_true]
  intro hplace
  exact hcodes f.code (h.code_mem f hf) (Problem.code_mem_ofPlaces hplace)

end UnitAnalysis

import UnitAnalysis.Proofs.Diagnostic.Code
import UnitAnalysis.Proofs.Diagnostic.Reports

/-!
# What options decide

The options have a say in two kinds of problems: comparisons are reported only when they are checked
strictly, and the wrong result of an asynchronous function has the severity that was asked for.
`Finding.under` applies options to a finding. Every judgement of the check reports one list of
findings, whatever the options are, with the options applied to it.
-/

set_option autoImplicit false

namespace UnitAnalysis

/-- The problem with the given severity for the result of an asynchronous function. -/
def Problem.graded (severity : Severity) : Problem → Problem
  | asyncReturnMismatch _ function declared found =>
    .asyncReturnMismatch severity function declared found
  | p => p

/-- What is left of a finding under options. -/
def Finding.under (options : Options) (f : Finding) : Option Finding :=
  if f.code = .comparisonOperands ∧ options.strictComparisons = false then none
  else some ⟨f.problem.graded options.asyncReturnMismatch.severity, f.span⟩

/-- The codes that options have a say in. -/
def Options.codes : List Code :=
  [.comparisonOperands, .asyncReturnTypeMismatch]

/-- A diagnostic without what options decide: nothing for a comparison, and the result of an
asynchronous function with a fixed severity. -/
def Diagnostic.apartFromOptions (d : Diagnostic) : Option Diagnostic :=
  if d.code = Code.comparisonOperands.text then none
  else if d.code = Code.asyncReturnTypeMismatch.text then some { d with severity := .error }
  else some d

namespace Problem

variable (severity : Severity)

@[simp] theorem code_graded (p : Problem) : (p.graded severity).code = p.code := by
  cases p <;> rfl

theorem graded_eq_self {p : Problem} (h : p.code ≠ .asyncReturnTypeMismatch) :
    p.graded severity = p := by
  cases p with
  | asyncReturnMismatch _ _ _ _ => exact absurd rfl h
  | _ => rfl

theorem severity_graded {p : Problem} (h : p.code = .asyncReturnTypeMismatch) :
    (p.graded severity).severity = severity := by
  cases p with
  | asyncReturnMismatch _ _ _ _ => rfl
  | operands op _ _ => simp only [code] at h; split at h <;> cases h
  | outsideAsync form _ => cases form <;> cases h
  | _ => cases h

/-- Apart from the severity, what is shown of a problem does not depend on its grade. -/
theorem toDiagnostic_graded (p : Problem) (span : Span) :
    (⟨p.graded severity, span⟩ : Finding).toDiagnostic =
      { (⟨p, span⟩ : Finding).toDiagnostic with severity := (p.graded severity).severity } := by
  cases p <;> rfl

end Problem

namespace Finding

variable {options : Options} {f g : Finding}

theorem code_of_under (h : f.under options = some g) : g.code = f.code := by
  unfold under at h
  split at h
  · cases h
  · cases h
    exact f.problem.code_graded _

theorem strict_of_under (h : f.under options = some g) (hg : g.code = .comparisonOperands) :
    options.strictComparisons = true := by
  rw [code_of_under h] at hg
  unfold under at h
  split at h
  · cases h
  · next hnot => simpa [hg] using hnot

theorem severity_of_under (h : f.under options = some g)
    (hg : g.code = .asyncReturnTypeMismatch) :
    g.problem.severity = options.asyncReturnMismatch.severity := by
  rw [code_of_under h] at hg
  unfold under at h
  split at h
  · cases h
  · cases h
    exact f.problem.severity_graded _ hg

theorem under_eq_self (h : f.code ∉ Options.codes) : f.under options = some f := by
  simp only [Options.codes, List.mem_cons, List.not_mem_nil, or_false, not_or] at h
  unfold under
  rw [if_neg fun hcode => h.1 hcode.1, Problem.graded_eq_self _ h.2]

/-- Whatever the options are, the same is left without what they decide. -/
theorem apartFromOptions_under (options options' : Options) (f : Finding) :
    ((f.under options).map toDiagnostic).bind Diagnostic.apartFromOptions =
      ((f.under options').map toDiagnostic).bind Diagnostic.apartFromOptions := by
  have hcode : ∀ g : Finding, g.toDiagnostic.code = g.code.text := fun _ => rfl
  by_cases hcomparison : f.code = .comparisonOperands
  · -- a comparison is left out here or there
    have hnone : ∀ o : Options,
        ((f.under o).map toDiagnostic).bind Diagnostic.apartFromOptions = none := by
      intro o
      cases h : f.under o with
      | none => rfl
      | some g =>
        have hg := code_of_under h
        simp [Diagnostic.apartFromOptions, hcode, hg, hcomparison]
    rw [hnone, hnone]
  · -- another finding is shown with one severity or the other
    have hunder : ∀ o : Options, f.under o =
        some ⟨f.problem.graded o.asyncReturnMismatch.severity, f.span⟩ := by
      intro o
      unfold under
      rw [if_neg fun h => hcomparison h.1]
    by_cases hasync : f.code = .asyncReturnTypeMismatch
    · have hshown : f.toDiagnostic.code = Code.asyncReturnTypeMismatch.text := by
        rw [hcode, hasync]
      have hother : Code.asyncReturnTypeMismatch.text ≠ Code.comparisonOperands.text := by decide
      simp only [hunder, Option.map_some, Option.bind_some, Problem.toDiagnostic_graded,
        Diagnostic.apartFromOptions, hshown, if_neg hother, if_true]
    · rw [under_eq_self, under_eq_self] <;>
        simp [Options.codes, hcomparison, hasync]

end Finding

/-- Findings of other codes are left as they are. -/
theorem Reports.filterMap_under {codes : List Code} {found : List Finding}
    (h : Reports codes found) (hcodes : ∀ c ∈ codes, c ∉ Options.codes) (options : Options) :
    found.filterMap (Finding.under options) = found := by
  have hself : ∀ f ∈ found, f.under options = some f := by
    intro f hf
    exact Finding.under_eq_self (hcodes _ (h.code_mem f hf))
  rw [List.filterMap_congr hself, List.filterMap_some]

namespace Check

variable (options : Options)

theorem binaryType_under (op : BinaryOp) (left right : Ty) (span : Span) :
    binaryType options.strictComparisons op left right span =
      ((binaryType true op left right span).1,
        (binaryType true op left right span).2.filterMap (Finding.under options)) := by
  by_cases hop : op.family = .comparison
  · cases hstrict : options.strictComparisons <;> cases hfit : left.compatible right <;>
      simp [binaryType, hop, comparisonType, hfit, Finding.under,
        Problem.graded, hstrict]
  · -- the other operators do not look at the option
    have hlenient : ∀ isStrict, binaryType isStrict op left right span =
        binaryType false op left right span := by
      intro isStrict
      unfold binaryType
      split <;> simp_all
    have hreports := reports_binaryType false op left right span
    rw [hlenient, hlenient true, hreports.filterMap_under (by decide)]

theorem resultFindings_under (f : Frame) (found : Ty) (span : Span) :
    resultFindings options f found span =
      (resultFindings {} f found span).filterMap (Finding.under options) := by
  unfold resultFindings returnProblem
  repeat' split
  all_goals simp [Finding.under, Problem.graded]

theorem returnFindings_under (w : Surroundings) (found : Ty) (span : Span) :
    returnFindings options w found span =
      (returnFindings {} w found span).filterMap (Finding.under options) := by
  unfold returnFindings
  split
  · exact resultFindings_under options _ found span
  · simp [Finding.under, Problem.graded]

end Check

end UnitAnalysis

import UnitAnalysis.Proofs.Rename.Analysis

/-!
# Codes tell severities

Every diagnostic of an analysis has a code that can be explained, and its code tells whether it is a
warning: three codes are warnings, the wrong result of an asynchronous function is one when the
options say so, and all others are errors. So whether code can be generated can be read off the
codes alone.
-/

set_option autoImplicit false

namespace UnitAnalysis

/-- The codes of warnings under options, as they are shown. -/
def Options.Warns (o : Options) (code : String) : Prop :=
  code ∈ ["TC015", "EXH002", "EXH003"] ∨ code = "TC031" ∧ o.asyncReturnMismatch = .warning

/-! ## Codes and their texts -/

/-- A code is read back from its text. -/
theorem Code.ofText?_text (c : Code) : ofText? c.text = some c := by
  unfold ofText?
  cases hfind : all.find? fun other => other.text = c.text with
  | none =>
    have hother := List.find?_eq_none.1 hfind c c.mem_all
    simp at hother
  | some other =>
    have htext : other.text = c.text := by simpa using List.find?_some hfind
    rw [text_injective htext]

/-- Every code is explained. -/
theorem explain_text (c : Code) : explain c.text = some c.explanation := by
  rw [explain, c.ofText?_text, Option.map_some]

/-- Which codes are shown as warnings. -/
theorem Options.warns_text_iff (o : Options) (c : Code) :
    o.Warns c.text ↔
      c ∈ [.forceUnwrapNonOptional, .nonExhaustiveMatch, .unreachableArm] ∨
        c = .asyncReturnTypeMismatch ∧ o.asyncReturnMismatch = .warning := by
  have htexts : ["TC015", "EXH002", "EXH003"] =
      [Code.forceUnwrapNonOptional, .nonExhaustiveMatch, .unreachableArm].map Code.text := rfl
  have hasync : "TC031" = Code.asyncReturnTypeMismatch.text := rfl
  rw [Warns, htexts, hasync, List.mem_map_of_injective Code.text_injective,
    Code.text_injective.eq_iff]

/-! ## Severities of problems -/

/-- All problems of a code have one severity, but for wrong results of asynchronous functions. -/
theorem Problem.severity_eq_warning_iff {p : Problem} (h : p.code ≠ .asyncReturnTypeMismatch) :
    p.severity = .warning ↔
      p.code ∈ [.forceUnwrapNonOptional, .nonExhaustiveMatch, .unreachableArm] := by
  cases p with
  | asyncReturnMismatch _ _ _ _ => exact absurd rfl h
  | operands op _ _ => cases hop : op.family <;> simp [severity, hop]
  | outsideAsync form _ => cases form <;> simp [severity]
  | _ => simp [severity]

/-- Only the level of warnings warns. -/
theorem MismatchLevel.severity_eq_warning_iff (level : MismatchLevel) :
    level.severity = .warning ↔ level = .warning := by
  cases level <;> simp [severity]

/-- The code of a finding that is left under options tells its severity. -/
theorem Finding.severity_eq_warning_iff {o : Options} {f g : Finding} (h : f.under o = some g) :
    g.problem.severity = .warning ↔ o.Warns g.code.text := by
  rw [o.warns_text_iff]
  by_cases hasync : g.code = .asyncReturnTypeMismatch
  · rw [severity_of_under h hasync, hasync, MismatchLevel.severity_eq_warning_iff]
    simp
  · rw [Problem.severity_eq_warning_iff hasync]
    exact (or_iff_left fun hlevel => hasync hlevel.1).symm

/-! ## Diagnostics of an analysis -/

/-- Whatever an analysis reports is what its options leave of some finding. -/
theorem Analysis.exists_under {config : Config} {u : SourceUnit} {g : Finding}
    (hg : g ∈ (analyze config u).findings) : ∃ f : Finding, f.under config.analysis = some g := by
  obtain ⟨-, -, -, all, hall, -⟩ :=
    analyze_lockstep Function.injective_id (rfl : config.intrinsics = config.intrinsics) u
  rw [hall] at hg
  obtain ⟨f, -, hf⟩ := List.mem_filterMap.1 hg
  exact ⟨f, hf⟩

/-- **Every diagnostic is documented, and its code fixes its severity.** Under every configuration,
each diagnostic of an analysis has a code with an explanation, and is a warning just when the code
is one of three or that of wrong results of asynchronous functions and those are warnings. Hence
code can be generated unless some diagnostic has another code. -/
theorem diagnostics_documented_and_graded (config : Config) (u : SourceUnit) :
    (∀ d ∈ (analyze config u).diagnostics, (explain d.code).isSome ∧
      (d.severity = .warning ↔ config.analysis.Warns d.code)) ∧
    ((analyze config u).canGenerate = false ↔
      ∃ d ∈ (analyze config u).diagnostics, ¬ config.analysis.Warns d.code) := by
  have hgraded : ∀ g ∈ (analyze config u).findings,
      (g.problem.severity = .warning ↔ config.analysis.Warns g.code.text) := by
    intro g hg
    obtain ⟨f, hf⟩ := Analysis.exists_under hg
    exact Finding.severity_eq_warning_iff hf
  constructor
  · intro d hd
    obtain ⟨g, hg, rfl⟩ := List.mem_map.1 hd
    have hexplained : explain g.toDiagnostic.code = some g.code.explanation := explain_text g.code
    exact ⟨by rw [hexplained]; rfl, hgraded g hg⟩
  · have hall : (analyze config u).canGenerate = false ↔
        ∃ g ∈ (analyze config u).findings, g.problem.severity = .error := by
      simp [Analysis.canGenerate]
    rw [hall]
    constructor
    · rintro ⟨g, hg, herror⟩
      refine ⟨g.toDiagnostic, List.mem_map_of_mem hg, fun hwarns => ?_⟩
      have hwarning := (hgraded g hg).2 hwarns
      rw [herror] at hwarning
      cases hwarning
    · rintro ⟨d, hd, hnot⟩
      obtain ⟨g, hg, rfl⟩ := List.mem_map.1 hd
      refine ⟨g, hg, ?_⟩
      cases hseverity : g.problem.severity with
      | error => rfl
      | warning => exact absurd ((hgraded g hg).1 hseverity) hnot

end UnitAnalysis

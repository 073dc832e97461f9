/-
How one stage of a lint command ends. It drains a run under the rules in effect; a fault of the run is
how it ends, and else the exit status for what was delivered (`result_runStage`). That status tells
whether there is an error among the issues, and cannot rise when some of them are taken away.
-/
import LintEngine.Command.Lint

namespace LintEngine

/-! ## Exit statuses -/

namespace Report

theorem exitStatus_eq_two_iff {highest : Option Severity} :
    exitStatus highest = 2 ↔ highest = some .error := by
  unfold exitStatus
  split
  · simpa
  · simpa

theorem exitStatus_cases (highest : Option Severity) :
    exitStatus highest = 0 ∨ exitStatus highest = 2 := by
  unfold exitStatus
  split
  · exact .inr rfl
  · exact .inl rfl

end Report

namespace Orchestrator

theorem highest?_eq_error_iff {o : Orchestrator} :
    o.highest? = some .error ↔ ∃ i ∈ o.issues, i.severity = .error := by
  rw [highest?, Severity.highest?_eq_error_iff, List.mem_map]

theorem summary_eq_error_iff {o : Orchestrator} :
    o.summary = .error ↔ ∃ i ∈ o.issues, i.severity = .error := by
  rw [← highest?_eq_error_iff, summary]
  split <;> simp_all

/-- Fewer issues have no higher severity among them. -/
theorem highest?_mono {o o' : Orchestrator} (h : o'.issues.Sublist o.issues) {severity : Severity}
    (hs : o'.highest? = some severity) :
    ∃ higher, o.highest? = some higher ∧ severity.rank ≤ higher.rank :=
  Severity.highest?_mono (h.map Issue.severity).subset hs

/-- With fewer issues the exit status is the same, or falls to that of success. -/
theorem exitStatus_mono {o o' : Orchestrator} (h : o'.issues.Sublist o.issues) :
    Report.exitStatus o'.highest? = Report.exitStatus o.highest? ∨
      Report.exitStatus o.highest? = 2 ∧ Report.exitStatus o'.highest? = 0 := by
  rcases Report.exitStatus_cases o'.highest? with hlow | hhigh
  · rcases Report.exitStatus_cases o.highest? with h0 | h2
    · exact .inl (hlow.trans h0.symm)
    · exact .inr ⟨h2, hlow⟩
  · obtain ⟨i, hi, herror⟩ := highest?_eq_error_iff.1 (Report.exitStatus_eq_two_iff.1 hhigh)
    have hsame : o.highest? = some .error := highest?_eq_error_iff.2 ⟨i, h.subset hi, herror⟩
    exact .inl (hhigh.trans (Report.exitStatus_eq_two_iff.2 hsame).symm)

end Orchestrator

/-! ## One stage -/

namespace LintSetup

/-- The rules in effect for a stage: those of the project, and those of the command line on top. -/
def rulesOf (s : LintSetup) (r : StageRequest) : IgnoreConfig :=
  Strategies.rulesFor (s.strategies.projectIgnores r.ctx.files r.ctx.projectDir).2 (some r.cliIgnores)

/-- The run of a stage, drained under the rules in effect. -/
def drained (s : LintSetup) (o : Orchestrator) (r : StageRequest) :
    List Step × Option Fault × Orchestrator :=
  s.strategies.drain s.candidates { o with ignores := s.rulesOf r } r.stage.label r.ctx

/-- How a stage ends after its run. -/
def ending (fault? : Option Fault) (o : Orchestrator) : Except Failure Nat :=
  match fault? with
  | some fault => .error (.fault fault)
  | none => .ok (Report.exitStatus o.highest?)

theorem result_runStage (s : LintSetup) (o : Orchestrator) (r : StageRequest) :
    (s.runStage o r).result = ending (s.drained o r).2.1 (s.drained o r).2.2 := by
  have hload : (s.strategies.load o r.ctx.files r.ctx.projectDir (some r.cliIgnores)).2 =
    { o with ignores := s.rulesOf r } := rfl
  unfold runStage drained
  rw [← hload]
  cases s.strategies.load o r.ctx.files r.ctx.projectDir (some r.cliIgnores) with
  | mk loaded o =>
    simp only
    cases s.strategies.drain s.candidates o r.stage.label r.ctx with
    | mk steps end? =>
      obtain ⟨fault?, o⟩ := end?
      cases fault? <;> rfl

theorem files_runStage (s : LintSetup) (o : Orchestrator) (r : StageRequest) :
    (s.runStage o r).files = r.ctx.files := by
  simp only [runStage]
  split <;> rfl

end LintSetup

end LintEngine

/-
How a lint command fails. It stumbles over a path or is refused before a linter runs; then nothing has been
printed and the orchestrator is as it was. Else a fault may break off the run of the stage that it started;
then nothing has been printed either, and what was delivered before the fault has been collected. Main
statement: `failing_lint_is_silent`. It takes for granted that temporary directories can be removed; what
comes of it when they cannot is told by `lint_of_sticks`.
-/
import LintEngine.Proofs.Command.Stage
import LintEngine.Proofs.Command.Start
import LintEngine.Proofs.Run.Pulls

namespace LintEngine

namespace LintSetup

variable {s : LintSetup} {files : FileTree} {options : LintOptions} {o : Orchestrator} {r : StageRequest}

/-! ## Breaking off -/

/-- The run of a stage, pulled a number of times. -/
def pulled (s : LintSetup) (o : Orchestrator) (r : StageRequest) (n : Nat) : Pulls :=
  (Run.waiting r.stage.label r.ctx).pulls s.strategies s.candidates n
    { o with ignores := s.rulesOf r }

/-- The run of a stage delivers issues one by one, and the pull behind the last of them raises a fault. -/
def BreaksOff (s : LintSetup) (o : Orchestrator) (r : StageRequest) (issues : List Issue)
    (fault : Fault) : Prop :=
  (s.pulled o r (issues.length + 1)).answers = issues.map .issue ++ [.faulted fault]

theorem breaksOff_iff {issues : List Issue} {fault : Fault} : s.BreaksOff o r issues fault ↔
    (s.drained o r).2.1 = some fault ∧ Session.issuesOf (s.drained o r).1 = issues := by
  obtain ⟨hanswers, -⟩ := Run.pulls_eq_drain s.strategies s.candidates
    { o with ignores := s.rulesOf r } r.stage.label r.ctx (issues.length + 1)
  unfold BreaksOff pulled
  rw [hanswers, Pulled.sequence_eq_faulted_iff]
  rfl

theorem state_runStage (s : LintSetup) (o : Orchestrator) (r : StageRequest) :
    (s.runStage o r).state = (s.drained o r).2.2 := by
  simp only [runStage, drained]
  split <;> rfl

/-- What has been delivered when a run breaks off is what the stage leaves behind. -/
theorem BreaksOff.runStage {issues : List Issue} {fault : Fault} (h : s.BreaksOff o r issues fault) :
    let staged := s.runStage o r
    staged.result = .error (.fault fault) ∧ staged.state = (s.pulled o r (issues.length + 1)).state ∧
      staged.state.issues = issues := by
  intro staged
  obtain ⟨hfault, hissues⟩ := breaksOff_iff.1 h
  have hall : (Session.issuesOf (s.drained o r).1).length < issues.length + 1 := by
    rw [hissues]; exact Nat.lt_succ_self _
  obtain ⟨-, hstate⟩ := Run.pulls_eq_drain s.strategies s.candidates
    { o with ignores := s.rulesOf r } r.stage.label r.ctx (issues.length + 1)
  refine ⟨?_, ?_, ?_⟩
  · rw [s.result_runStage, hfault]; rfl
  · rw [s.state_runStage]; exact (hstate hall).symm
  · rw [s.state_runStage, ← hissues]
    exact Run.issues_drain s.strategies s.candidates { o with ignores := s.rulesOf r } _ r.ctx

/-- A stage that does not succeed breaks off. -/
theorem breaksOff_of_result {failure : Failure} (h : (s.runStage o r).result = .error failure) :
    ∃ issues fault, failure = .fault fault ∧ s.BreaksOff o r issues fault := by
  rw [s.result_runStage] at h
  cases hfault : (s.drained o r).2.1 with
  | none => rw [hfault] at h; cases h
  | some fault =>
    rw [hfault] at h
    cases h
    exact ⟨_, fault, rfl, breaksOff_iff.2 ⟨hfault, rfl⟩⟩

theorem messagesOf_logOf (step : Step) : messagesOf (logOf step) = [] := by
  rcases step with (_ | _) | _ <;> rfl

theorem exists_breaksOff_iff {fault : Fault} :
    (∃ issues, s.BreaksOff o r issues fault) ↔ (s.runStage o r).result = .error (.fault fault) := by
  refine ⟨fun ⟨issues, breaks⟩ => breaks.runStage.1, fun h => ?_⟩
  obtain ⟨issues, fault', ⟨⟩, breaks⟩ := breaksOff_of_result h
  exact ⟨issues, breaks⟩

/-- While a run is worked off nothing is printed. -/
theorem messagesOf_flatMap_logOf (steps : List Step) : messagesOf (steps.flatMap logOf) = [] := by
  induction steps with
  | nil => rfl
  | cons step steps ih => rw [List.flatMap_cons, messagesOf_append, messagesOf_logOf, ih]; rfl

/-- A stage prints nothing unless it succeeds. -/
theorem messagesOf_runStage {failure : Failure} (h : (s.runStage o r).result = .error failure) :
    messagesOf (s.runStage o r).log = [] := by
  simp only [runStage] at h ⊢
  split at h
  · exact messagesOf_flatMap_logOf _
  · cases h

/-! ## The ways to fail -/

/-- A command that has to leave its temporary directory behind a stage that succeeded ends with what kept it
from removing that. By then the report and the verdict have been printed. -/
theorem lint_of_sticks {fault : Fault} {status : Nat} (starts : s.Starts files options r)
    (sticks : s.Sticks files options fault) (succeeds : (s.runStage o r).result = .ok status) :
    let run := s.lint o files options
    run.result = .error (.fault fault) ∧ run.state = (s.runStage o r).state ∧
      messagesOf run.log = messagesOf (s.runStage o r).log := by
  intro run
  obtain ⟨hstate, hlog, raised?, hraised, hresult⟩ := lint_of_starts starts o
  rw [succeeds, (hraised fault).2 sticks] at hresult
  exact ⟨hresult, hstate, hlog⟩

/-- A command whose run breaks off ends with the fault, prints nothing and holds what was delivered. -/
theorem lint_of_breaksOff {issues : List Issue} {fault : Fault} (starts : s.Starts files options r)
    (breaks : s.BreaksOff o r issues fault) :
    let run := s.lint o files options
    run.result = .error (.fault fault) ∧ messagesOf run.log = [] ∧ run.state.issues = issues ∧
      run.state = (s.pulled o r (issues.length + 1)).state := by
  intro run
  obtain ⟨hstate, hlog, raised?, -, hresult⟩ := lint_of_starts starts o
  obtain ⟨hfault, hpulled, hissues⟩ := breaks.runStage
  have hrun : run.result = _ ∧ run.state = _ ∧ messagesOf run.log = _ := ⟨hresult, hstate, hlog⟩
  rw [hrun.1, hrun.2.1, hrun.2.2, hfault]
  exact ⟨rfl, messagesOf_runStage hfault, hissues, hpulled⟩

/-- A command fails because it is refused, or stumbles, or because the run of the stage that it started
breaks off, or because a temporary directory cannot be removed behind a stage that succeeded. -/
theorem failure_cases {failure : Failure} (h : (s.lint o files options).result = .error failure) :
    (∃ e, failure = .app e ∧ s.Refuses files options e) ∨
      ∃ fault, failure = .fault fault ∧ (s.Stumbles files options fault ∨
        (∃ r issues, s.Starts files options r ∧ s.BreaksOff o r issues fault) ∨
        ∃ r status, s.Starts files options r ∧ (s.runStage o r).result = .ok status ∧
          s.Sticks files options fault) := by
  rcases s.stumbles_or_refuses_or_starts files options with
    ⟨fault, stumbles⟩ | ⟨e, refused⟩ | ⟨r, starts⟩
  · rw [(lint_of_stumbles stumbles o).1] at h
    cases h
    exact .inr ⟨fault, rfl, .inl stumbles⟩
  · rw [(lint_of_refuses refused o).1] at h
    cases h
    exact .inl ⟨e, rfl, refused⟩
  · obtain ⟨-, -, raised?, hraised, hresult⟩ := lint_of_starts starts o
    rw [hresult] at h
    cases hstaged : (s.runStage o r).result with
    | error failure' =>
      rw [hstaged] at h
      cases h
      obtain ⟨issues, fault, rfl, breaks⟩ := breaksOff_of_result hstaged
      exact .inr ⟨fault, rfl, .inr (.inl ⟨r, issues, starts, breaks⟩)⟩
    | ok status =>
      rw [hstaged] at h
      cases raised? with
      | none => cases h
      | some fault =>
        cases h
        exact .inr ⟨fault, rfl, .inr (.inr ⟨r, status, starts, hstaged, (hraised fault).1 rfl⟩)⟩

/-- A command ends with a foreseen error when it is refused. -/
theorem lint_eq_app_iff {e : AppError} :
    (s.lint o files options).result = .error (.app e) ↔ s.Refuses files options e := by
  refine ⟨fun h => ?_, fun refused => (lint_of_refuses refused o).1⟩
  rcases failure_cases h with ⟨e', ⟨⟩, refused⟩ | ⟨fault, ⟨⟩, -⟩
  exact refused

/-- A command ends with a fault in one of three ways. -/
theorem lint_eq_fault_iff {fault : Fault} :
    (s.lint o files options).result = .error (.fault fault) ↔ s.Stumbles files options fault ∨
      (∃ r issues, s.Starts files options r ∧ s.BreaksOff o r issues fault) ∨
      ∃ r status, s.Starts files options r ∧ (s.runStage o r).result = .ok status ∧
        s.Sticks files options fault := by
  constructor
  · intro h
    rcases failure_cases h with ⟨e, ⟨⟩, -⟩ | ⟨fault', ⟨⟩, ways⟩
    exact ways
  · rintro (stumbles | ⟨r, issues, starts, breaks⟩ | ⟨r, status, starts, succeeds, sticks⟩)
    · exact (lint_of_stumbles stumbles o).1
    · exact (lint_of_breaksOff starts breaks).1
    · exact (lint_of_sticks starts sticks succeeds).1

end LintSetup

end LintEngine

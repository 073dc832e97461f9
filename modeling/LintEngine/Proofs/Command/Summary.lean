/-
What is told of the issues that were found. The report is made from the groups by linter name, the highest
severity from the flat list, and verdict, summary and exit status each by a rule of its own. They tell one
story (`Orchestrator.Tells`) whenever list and groups hold one ledger, and so after all that can be done
with an orchestrator. Main statement: `summaries_agree`.
-/
import LintEngine.Proofs.Command.Failing
import LintEngine.Proofs.Run.Aggregation
import Mathlib.Tactic.ByContra

namespace LintEngine

/-! ## The highest severity -/

namespace Severity

theorem rank_injective : Function.Injective rank := by
  intro s t h
  cases s <;> cases t <;> first | rfl | cases h

/-- The highest severity of a list is the one that a member has and none outranks. -/
theorem highest?_eq_some_iff {l : List Severity} {s : Severity} :
    highest? l = some s ↔ s ∈ l ∧ ∀ t ∈ l, t.rank ≤ s.rank := by
  refine ⟨fun h => ⟨highest?_mem h, fun t => rank_le_highest h⟩, ?_⟩
  rintro ⟨hmem, hmax⟩
  obtain ⟨t, ht, hrank⟩ := highest?_of_mem hmem
  rw [ht, rank_injective (Nat.le_antisymm (hmax t (highest?_mem ht)) hrank)]

theorem highest?_eq_none_iff {l : List Severity} : highest? l = none ↔ l = [] := by
  refine ⟨fun h => List.eq_nil_iff_forall_not_mem.2 fun s hs => ?_, fun h => by rw [h]; rfl⟩
  obtain ⟨t, ht, -⟩ := highest?_of_mem hs
  rw [h] at ht
  cases ht

theorem highest?_perm {l m : List Severity} (h : l.Perm m) : highest? l = highest? m := by
  ext s
  simp only [highest?_eq_some_iff, h.mem_iff]

end Severity

/-! ## Verdicts -/

namespace Report

/-- Verdicts tell by their first character what kind they are. -/
theorem head?_verdict (highest : Option Severity) (subject : String) :
    (verdict highest subject).toList.head? = some
      (match highest with
        | none => 'L'
        | some .error => 'E'
        | some _ => 'P') := by
  cases highest with
  | none =>
    show ("Linted " ++ subject ++ " successfully.").toList.head? = some 'L'
    simp
  | some severity =>
    cases severity with
    | error =>
      show ("Errors found in " ++ subject).toList.head? = some 'E'
      simp
    | info | warning =>
      show ("Possible issues found in " ++ subject).toList.head? = some 'P'
      simp

theorem verdict_eq_success_iff {highest : Option Severity} {subject : String} :
    verdict highest subject = "Linted " ++ subject ++ " successfully." ↔ highest = none := by
  refine ⟨fun h => ?_, fun h => by rw [h]; rfl⟩
  have hhead := (head?_verdict highest subject).symm.trans
    ((congrArg (·.toList.head?) h).trans (head?_verdict none subject))
  rcases highest with _ | _ | _ | _ <;> first | rfl | cases hhead

theorem verdict_eq_errors_iff {highest : Option Severity} {subject : String} :
    verdict highest subject = "Errors found in " ++ subject ↔ highest = some .error := by
  refine ⟨fun h => ?_, fun h => by rw [h]; rfl⟩
  have hhead := (head?_verdict highest subject).symm.trans
    ((congrArg (·.toList.head?) h).trans (head?_verdict (some .error) subject))
  rcases highest with _ | _ | _ | _ <;> first | rfl | cases hhead

end Report

/-! ## Groups -/

/-- Groups for distinct keys have each member with one of the keys once. -/
theorem flatMap_filter_perm {α κ : Type} [DecidableEq κ] (key : α → κ) (l : List α) {keys : List κ}
    (h : keys.Nodup) : (keys.flatMap fun k => l.filter (key · = k)).Perm (l.filter (key · ∈ keys)) := by
  induction keys with
  | nil => simp
  | cons k keys ih =>
    -- the members with one of the keys are those with the first key and those with one of the others
    obtain ⟨hk, hkeys⟩ := List.nodup_cons.1 h
    have hfirst : (l.filter (key · ∈ k :: keys)).filter (key · = k) = l.filter (key · = k) := by
      rw [List.filter_filter]
      refine List.filter_congr fun a _ => ?_
      by_cases ha : key a = k
      · subst ha; simp
      · simp [ha]
    have hothers : (l.filter (key · ∈ k :: keys)).filter (fun a => !decide (key a = k)) =
        l.filter (key · ∈ keys) := by
      rw [List.filter_filter]
      refine List.filter_congr fun a _ => ?_
      by_cases ha : key a = k
      · subst ha; simp [hk]
      · simp [ha]
    have hsplit := List.filter_append_perm (key · = k) (l.filter (key · ∈ k :: keys))
    rw [hfirst, hothers] at hsplit
    rw [List.flatMap_cons]
    exact ((ih hkeys).append_left _).trans hsplit

namespace Ledger

theorem names_eq_nil_iff {w : Ledger} : w.names = [] ↔ w.issues = [] := by
  rw [issues, List.map_eq_nil_iff]
  refine ⟨fun h => List.eq_nil_iff_forall_not_mem.2 fun e he => ?_, fun h => by rw [h]; rfl⟩
  have hname := mem_names.2 ⟨e, he, rfl⟩
  rw [h] at hname
  cases hname

/-- The issues of all names are those of the ledger, each once and under its own name. -/
theorem perm_groups (w : Ledger) :
    (w.names.flatMap fun name => (w.issuesOf name).map (name, ·)).Perm
      (w.map fun e => (e.1.declaredName, e.2)) := by
  have hgroup : ∀ name, (w.issuesOf name).map (name, ·) =
      (w.filter fun e => e.1.declaredName = name).map fun e => (e.1.declaredName, e.2) := by
    intro name
    rw [issuesOf, List.map_map]
    refine List.map_congr_left fun e he => ?_
    have hname : e.1.declaredName = name := of_decide_eq_true (List.mem_filter.1 he).2
    rw [hname]; rfl
  have hall : (w.filter fun e => e.1.declaredName ∈ w.names) = w := by
    refine List.filter_eq_self.2 fun e he => decide_eq_true ?_
    exact mem_names.2 ⟨e, he, rfl⟩
  have hperm := flatMap_filter_perm (fun e : LinterClass × Issue => e.1.declaredName) w
    (OrderedSet.nodup (OrderedSet.ofList (w.map fun e => e.1.declaredName)))
  simp only [hgroup]
  rw [← List.map_flatMap]
  exact (hperm.trans (.of_eq hall)).map _

end Ledger

namespace Orchestrator

/-- What is told of the issues that an orchestrator has collected, given by which class each of them was
delivered. -/
structure Tells (o : Orchestrator) (w : Ledger) : Prop where
  issues : o.issues = w.issues
  /-- Without issues there is no report, no highest severity, and the verdict is success; with issues it
  is not so. -/
  unreported : Report.lines o.byLinter = [] ↔ o.issues = []
  unrated : o.highest? = none ↔ o.issues = []
  success : ∀ subject, Report.verdict o.highest? subject = "Linted " ++ subject ++ " successfully." ↔
    o.issues = []
  /-- A report has one block for each linter name, in the order of their first issues: the name, and below
  it a line for each issue of that name, in order. -/
  report : o.issues ≠ [] → Report.lines o.byLinter = Report.header ::
    w.names.flatMap fun name => (name ++ ":") :: (w.issuesOf name).map Issue.line
  /-- Each issue stands in the report once, under the name of its linter. -/
  once : (w.names.flatMap fun name => (w.issuesOf name).map (name, ·)).Perm
    (w.map fun e => (e.1.declaredName, e.2))
  /-- An error among the issues is told in three ways. -/
  summary : o.summary = .error ↔ ∃ i ∈ o.issues, i.severity = .error
  status : Report.exitStatus o.highest? = 2 ↔ ∃ i ∈ o.issues, i.severity = .error
  errors : ∀ subject, Report.verdict o.highest? subject = "Errors found in " ++ subject ↔
    ∃ i ∈ o.issues, i.severity = .error
  /-- The highest severity is that of an issue which none outranks, and does not depend on their order. -/
  highest : ∀ severity, o.highest? = some severity ↔
    (∃ i ∈ o.issues, i.severity = severity) ∧ ∀ i ∈ o.issues, i.severity.rank ≤ severity.rank
  reordered : ∀ issues : List Issue, issues.Perm o.issues →
    Severity.highest? (issues.map Issue.severity) = o.highest?

section Holds

variable {o : Orchestrator} {w : Ledger}

theorem highest?_eq_none_iff : o.highest? = none ↔ o.issues = [] := by
  rw [highest?, Severity.highest?_eq_none_iff, List.map_eq_nil_iff]

theorem Holds.toList_byLinter (h : o.Holds w) :
    o.byLinter.toList = w.names.map fun name => (name, w.issuesOf name) := by
  rw [← h.keys, OrderedMap.keys, List.map_map]
  refine (List.map_id _).symm.trans (List.map_congr_left fun g hg => ?_)
  have hgroup : (o.byLinter.find? g.1).getD [] = g.2 := by
    rw [OrderedMap.find?_eq_some.2 hg]; rfl
  exact Prod.ext rfl (hgroup.symm.trans (h.groups g.1))

/-- An orchestrator whose list and groups hold one ledger tells what was found. -/
theorem Holds.tells (h : o.Holds w) : o.Tells w := by
  have hgroups : o.byLinter.toList = [] ↔ o.issues = [] := by
    rw [h.toList_byLinter, List.map_eq_nil_iff, Ledger.names_eq_nil_iff, h.issues]
  have hlines : o.issues ≠ [] → Report.lines o.byLinter = Report.header ::
      w.names.flatMap fun name => (name ++ ":") :: (w.issuesOf name).map Issue.line := by
    intro hsome
    rw [Report.lines, if_neg (mt hgroups.1 hsome), h.toList_byLinter, List.flatMap_map]
  refine
    { issues := h.issues
      unreported := ?_
      unrated := highest?_eq_none_iff
      success := fun _ => Report.verdict_eq_success_iff.trans highest?_eq_none_iff
      report := hlines
      once := w.perm_groups
      summary := summary_eq_error_iff
      status := Report.exitStatus_eq_two_iff.trans highest?_eq_error_iff
      errors := fun _ => Report.verdict_eq_errors_iff.trans highest?_eq_error_iff
      highest := ?_
      reordered := fun _ hperm => Severity.highest?_perm (hperm.map _) }
  · refine ⟨fun hnone => ?_, fun hnone => if_pos (hgroups.2 hnone)⟩
    by_contra hsome
    rw [hlines hsome] at hnone
    cases hnone
  · intro severity
    rw [highest?, Severity.highest?_eq_some_iff, List.mem_map, List.forall_mem_map]

end Holds

end Orchestrator

/-! ## The command -/

namespace LintSetup

variable {s : LintSetup} {o : Orchestrator}

theorem runStage_holds (s : LintSetup) (o : Orchestrator) (r : StageRequest) :
    ∃ w, (s.runStage o r).state.Holds w := by
  rw [state_runStage]
  exact ⟨_, s.strategies.drain_holds s.candidates { o with ignores := s.rulesOf r } _ r.ctx []⟩

theorem lint_holds {w : Ledger} (h : o.Holds w) (files : FileTree) (options : LintOptions) :
    ∃ w', (s.lint o files options).state.Holds w' := by
  rcases s.stumbles_or_refuses_or_starts files options with
    ⟨fault, stumbles⟩ | ⟨e, refused⟩ | ⟨r, starts⟩
  · rw [(lint_of_stumbles stumbles o).2.1]
    exact ⟨w, h⟩
  · rw [(lint_of_refuses refused o).2.1]
    exact ⟨w, h⟩
  · rw [(lint_of_starts starts o).1]
    exact s.runStage_holds o r

/-- A stage that succeeds prints the report and the verdict on what it leaves behind, and ends with the
exit status for that. -/
theorem runStage_ok {r : StageRequest} {status : Nat} (h : (s.runStage o r).result = .ok status) :
    let left := (s.runStage o r).state
    status = Report.exitStatus left.highest? ∧ messagesOf (s.runStage o r).log =
      Report.lines left.byLinter ++ [Report.verdict left.highest? r.subject] := by
  simp only [runStage] at h ⊢
  split at h
  · cases h
  · cases h
    refine ⟨rfl, ?_⟩
    rw [messagesOf_append, messagesOf_append, messagesOf_flatMap_logOf, messagesOf_message]
    rfl

/-- So does a command that succeeds. -/
theorem lint_ok {files : FileTree} {options : LintOptions} {status : Nat}
    (h : (s.lint o files options).result = .ok status) :
    let left := (s.lint o files options).state
    status = Report.exitStatus left.highest? ∧ ∃ r, s.Starts files options r ∧
      messagesOf (s.lint o files options).log =
        Report.lines left.byLinter ++ [Report.verdict left.highest? r.subject] := by
  intro left
  rcases s.stumbles_or_refuses_or_starts files options with
    ⟨fault, stumbles⟩ | ⟨e, refused⟩ | ⟨r, starts⟩
  · rw [(lint_of_stumbles stumbles o).1] at h
    cases h
  · rw [(lint_of_refuses refused o).1] at h
    cases h
  · obtain ⟨hstate, hlog, raised?, -, hresult⟩ := lint_of_starts starts o
    rw [hresult] at h
    obtain ⟨hstatus, hmessages⟩ := runStage_ok (Failure.of_behind_eq_ok h)
    have hleft : left = _ := hstate
    rw [hleft, hlog]
    exact ⟨hstatus, r, starts, hmessages⟩

end LintSetup

/-- An orchestrator that comes fresh into a session holds nothing, and no run is open. -/
theorem Session.coherent_fresh (s : Session) (worker : String) (fresh : Worker)
    (h : fresh.state.Holds []) :
    Coherent { s with workers := s.workers.insert worker fresh, runs := ∅ } worker [] where
  holds := by
    unfold Session.worker
    rw [OrderedMap.find?_insert, if_pos rfl]
    exact h
  named := fun _ => trivial

/-- After whatever has been done in a session, an orchestrator that came into it fresh tells what has been
delivered to it since one of its runs last started: the report has every issue once, in the group of its
linter's name, and report, verdict, summary, exit status and highest severity agree on whether there are
issues, and errors among them. So it is after a lint command on top of that, however it ends; and one that
succeeds prints the report and the verdict of what it leaves behind, and ends with its exit status. -/
theorem summaries_agree (s : Session) (worker : String) (strategies : Strategies)
    (ownRegistry : Bool) (ignores : IgnoreConfig) (commands : List Command) :
    let fresh : Worker := { strategies, ownRegistry, state := { ignores } }
    let s : Session := { s with workers := s.workers.insert worker fresh, runs := ∅ }
    let o := ((s.after commands).worker worker).state
    o.Tells (Ledger.addAll [] (s.history worker commands)) ∧
    ∀ (setup : LintSetup) (files : FileTree) (options : LintOptions),
      let run := setup.lint o files options
      (∃ w, run.state.Tells w) ∧
      ∀ status, run.result = .ok status → status = Report.exitStatus run.state.highest? ∧
        ∃ r, setup.Starts files options r ∧ messagesOf run.log =
          Report.lines run.state.byLinter ++ [Report.verdict run.state.highest? r.subject] := by
  intro fresh start o
  have hstart : start.Coherent worker [] :=
    s.coherent_fresh worker fresh (Orchestrator.holds_reset { ignores })
  have hholds : o.Holds (Ledger.addAll [] (start.history worker commands)) := (hstart.after commands).holds
  refine ⟨hholds.tells, ?_⟩
  intro setup files options run
  refine ⟨?_, fun status => LintSetup.lint_ok⟩
  obtain ⟨w, hw⟩ := setup.lint_holds hholds files options
  exact ⟨w, hw.tells⟩

/-- Classes of one name share a block, which stands where the first issue of that name was found. -/
example :
    let linter := fun (key name : String) (i : Issue) =>
      ({ own := { key, linterName := some (.text name), stage := some (.text "pre"),
                  run := .method fun _ => .lazy (.issue i .done) } } : LinterClass)
    let registry : Registry :=
      { pre := [linter "first" "docs" ⟨"A", "old", .info, "a.md", ""⟩, linter "second" "links"
          ⟨"B", "dead", .warning, "", ""⟩, linter "third" "docs" ⟨"C", "gone", .error, "", "url"⟩] }
    let o := (({} : Strategies).drain registry.forLabel {} "pre" default).2.2
    Report.lines o.byLinter ++ [Report.verdict o.highest? "demo"] =
      ["lint results:", "docs:", "  - [INFO] A: old (a.md)", "  - [ERROR] C: gone <url>", "links:",
        "  - [WARNING] B: dead", "Errors found in demo"] := by
  decide +kernel

end LintEngine

/-
The exit status of the command, said of its options, the file tree and the tools of the system. A command
that gets to start a stage looks at one thing, an artifact or the project's source, with one linter
(`lookup_cases`); how the stage ends follows from what is there and what the rules in effect say of the one
issue that the linter can report (`stage_outcome`). Main statement: `run_status_iff`.
-/
import LintEngine.Command.Run
import LintEngine.Proofs.Command.Failing
import LintEngine.Proofs.Run.Reference

namespace LintEngine

/-! ## What a lint command looks at -/

/-- A directory of a file tree that holds nothing but metadata and hidden files. -/
def FileTree.IsEmptyArtifact (t : FileTree) (dir : String) : Prop :=
  ∃ names, t.list dir = .ok names ∧
    ∀ name ∈ names, name = Testcraft.metadata ∨ name.toList.head? = some '.'

namespace Testcraft

/-- Whether a document is a project's that has no version. -/
def isUnversioned (v : Value) : Bool :=
  v.isMapping && !(v.get "version").isTruthy

section Looks

variable (f : Formats) (tools : Artifact.Tools) (files : FileTree) (options : LintOptions)

/-- The directory of a project that is looked at for its artifact: that directory, and the file tree in
which it stands. It holds the entries of a packed artifact, or else is the one with the built artifact. -/
inductive Inspects : String → String → FileTree → Prop
  | unpacked {file artifact dir : String} {tree : FileTree}
      (located : Project.locate files options.projectPath app = .ok file)
      (packed : options.postArtifact = some artifact)
      (opens : Artifact.Opens tools files artifact (app ++ "-lint-") dir tree) :
      Inspects (Path.dirname file) dir tree
  | built {file : String}
      (located : Project.locate files options.projectPath app = .ok file)
      (plain : options.postArtifact = none) (post : options.stage = .post)
      (present : files.pathExists (Path.join (Path.dirname file) primeDir) = true) :
      Inspects (Path.dirname file) (Path.join (Path.dirname file) primeDir) files

/-- The project directory whose source is looked at. -/
inductive Reads : String → Prop
  | intro {file : String} (located : Project.locate files options.projectPath app = .ok file)
      (plain : options.postArtifact = none) (pre : options.stage = .pre) : Reads (Path.dirname file)

/-- There is nothing to be looked at: no artifact has been built. -/
inductive Idles : Prop
  | intro {file : String} (located : Project.locate files options.projectPath app = .ok file)
      (plain : options.postArtifact = none) (post : options.stage = .post)
      (absent : files.pathExists (Path.join (Path.dirname file) primeDir) = false)

/-- The rules in effect: those that the project's directory holds in a file tree, and those of the
command line on top. -/
def rulesIn (projectDir : String) (tree : FileTree) : IgnoreConfig :=
  Strategies.rulesFor (IgnoreFile.loadProject f tree projectDir).2
    (some ((setup f).cliIgnores files options).2)

/-- A fault breaks off the run of the stage: by the linter, which cannot read what it looks at, or by the
decision on its issue. -/
inductive Breaks : Fault → Prop
  | unreadable {projectDir : String} {fault : Fault} (reads : Reads files options projectDir)
      (present : files.pathExists (Path.join projectDir projectFile) = true)
      (document : f.readDocument files (Path.join projectDir projectFile) = .error fault) : Breaks fault
  | undecidedVersion {projectDir : String} {v : Value} {fault : Fault}
      (reads : Reads files options projectDir)
      (present : files.pathExists (Path.join projectDir projectFile) = true)
      (document : f.readDocument files (Path.join projectDir projectFile) = .ok v)
      (unversioned : isUnversioned v = true)
      (undecided : (rulesIn f files options projectDir files).hides "testcraft.missing_version"
        (versionIssue (Path.join projectDir projectFile)) = .error fault) : Breaks fault
  | unlisted {projectDir dir : String} {tree : FileTree} {fault : FileFault}
      (inspects : Inspects tools files options projectDir dir tree) (present : tree.pathExists dir = true)
      (listing : tree.list dir = .error fault) : Breaks (.file fault)
  | undecidedArtifact {projectDir dir : String} {tree : FileTree} {fault : Fault}
      (inspects : Inspects tools files options projectDir dir tree) (empty : tree.IsEmptyArtifact dir)
      (undecided : (rulesIn f files options projectDir tree).hides "testcraft.empty_artifact"
        (emptyIssue dir) = .error fault) : Breaks fault

/-- A fault is raised on the way: a path cannot be looked at, or the run of the stage is broken off, or else
a temporary directory cannot be removed. -/
inductive Raises : Fault → Prop
  | stumbled {fault : Fault} (stumbles : (setup f tools).Stumbles files options fault) : Raises fault
  | broken {fault : Fault} (breaks : Breaks f tools files options fault) : Raises fault
  | stuck {fault : Fault} (sticks : (setup f tools).Sticks files options fault)
      (unbroken : ∀ other, ¬Breaks f tools files options other) : Raises fault

/-- An artifact is found to be empty, and the rules do not hide it. -/
def Reports : Prop :=
  ∃ projectDir dir tree, Inspects tools files options projectDir dir tree ∧ tree.IsEmptyArtifact dir ∧
    (rulesIn f files options projectDir tree).hides "testcraft.empty_artifact" (emptyIssue dir) =
      .ok false

end Looks

end Testcraft

/-! ## One linter -/

/-- How a stage ends that works off one script. -/
def Script.ending (script : Script) : Except Failure Nat :=
  match script.fault? with
  | some fault => .error (.fault fault)
  | none => .ok (Report.exitStatus (Severity.highest? (script.issues.map Issue.severity)))

/-- The trace of one class that may be used, under the default filter: its script, less what the rules
hide. -/
theorem Strategies.trace_single {s : Strategies} (hfilter : s.filter = IssueFilter.keepAll)
    (rules : IgnoreConfig) (stage : String) (ctx : LintContext) {c : LinterClass} {name : String}
    {declared : Stage} {script : Script} (hvalid : c.validate = .ok (name, declared))
    (hcall : c.call ctx = .lazy script) :
    let hidden := script.hideIssues (rules.hides name)
    Session.issuesOf (s.trace rules stage ctx [c]).1 = hidden.issues ∧
      (s.trace rules stage ctx [c]).2 = hidden.fault? := by
  intro hidden
  have hstart : (s.start rules stage ctx c).2 = .ok (⟨c, name⟩, hidden) := by
    rw [start, hvalid]
    simp only [hcall, hfilter, Opening.lazy, IssueFilter.keepAll]
    rfl
  rw [trace]
  cases hnotes : s.start rules stage ctx c with
  | mk notes result =>
    rw [hnotes] at hstart
    cases hstart
    simp only [trace]
    cases hidden.fault? <;> simp [Script.issuesOf_steps]

/-! ## The linters of the command -/

namespace Testcraft

variable {f : Formats} {tools : Artifact.Tools} {files : FileTree} {options : LintOptions}

/-- The linter of a stage, by its class. -/
def linterOf (f : Formats) : Stage → LinterClass
  | .pre => missingVersion f
  | .post => emptyArtifact

/-- The name of the linter of a stage. -/
def linterName : Stage → String
  | .pre => "testcraft.missing_version"
  | .post => "testcraft.empty_artifact"

/-- What the linter of a stage does. -/
def scriptOf (f : Formats) (ctx : LintContext) : Stage → Script
  | .pre => checkVersion f ctx
  | .post => checkContent ctx.files ctx.artifactDirs

/-- A stage of the command works off the script of its linter, less what the rules in effect hide. -/
theorem result_runStage (f : Formats) (tools : Artifact.Tools) (o : Orchestrator) (r : StageRequest) :
    ((setup f tools).runStage o r).result = ((scriptOf f r.ctx r.stage).hideIssues
      (((setup f tools).rulesOf r).hides (linterName r.stage))).ending := by
  have hselect : (setup f tools).strategies.select r.stage.label r.ctx
      ((setup f tools).candidates r.stage.label) = .ok [linterOf f r.stage] := by
    cases r.stage <;> rfl
  have hvalid : (linterOf f r.stage).validate = .ok (linterName r.stage, r.stage) := by
    cases r.stage <;> rfl
  have hcall : (linterOf f r.stage).call r.ctx = .lazy (scriptOf f r.ctx r.stage) := by
    cases r.stage <;> rfl
  have hdrained : (setup f tools).drained o r = _ :=
    Strategies.drain_eq hselect { o with ignores := (setup f tools).rulesOf r }
  have hfilter : (setup f tools).strategies.filter = IssueFilter.keepAll := rfl
  obtain ⟨hissues, hfault⟩ :=
    Strategies.trace_single hfilter ((setup f tools).rulesOf r) r.stage.label r.ctx hvalid hcall
  unfold Script.ending
  rw [(setup f tools).result_runStage, hdrained, ← hissues, ← hfault, Session.issuesOf_eq]
  unfold LintSetup.ending Orchestrator.highest?
  rw [Orchestrator.issues_recordAll]
  rfl

end Testcraft

/-! ## What the linters say -/

namespace Testcraft

theorem any_isContent_eq_false_iff {names : List String} : names.any isContent = false ↔
    ∀ name ∈ names, name = metadata ∨ name.toList.head? = some '.' := by
  rw [List.any_eq_false]
  refine forall₂_congr fun name _ => ?_
  unfold isContent
  by_cases h : name = metadata <;> simp [h]

theorem checkContent_of_empty {tree : FileTree} {dir : String} (h : tree.IsEmptyArtifact dir) :
    checkContent tree [dir] = .issue (emptyIssue dir) .done := by
  obtain ⟨names, hlist, hnames⟩ := h
  have hcontent := any_isContent_eq_false_iff.2 hnames
  simp [checkContent, FileTree.pathExists_of_list hlist, hlist, hcontent]

theorem checkContent_of_unlisted {tree : FileTree} {dir : String} {e : FileFault}
    (present : tree.pathExists dir = true) (listing : tree.list dir = .error e) :
    checkContent tree [dir] = .fail (.file e) := by
  simp [checkContent, present, listing]

/-- The look at an artifact reports that it is empty, or fails because its directory cannot be listed,
or has nothing to say. -/
theorem checkContent_cases (tree : FileTree) (dir : String) : tree.IsEmptyArtifact dir ∨
    (∃ e, tree.pathExists dir = true ∧ tree.list dir = .error e) ∨ checkContent tree [dir] = .done := by
  cases present : tree.pathExists dir with
  | false => exact .inr (.inr (by simp [checkContent, present]))
  | true =>
    cases listing : tree.list dir with
    | error e => exact .inr (.inl ⟨e, rfl, rfl⟩)
    | ok names =>
      cases content : names.any isContent with
      | false => exact .inl ⟨names, listing, any_isContent_eq_false_iff.1 content⟩
      | true => exact .inr (.inr (by simp [checkContent, present, listing, content]))

section Version

variable {f : Formats} {ctx : LintContext}

theorem checkVersion_of_unversioned {v : Value}
    (present : ctx.files.pathExists (Path.join ctx.projectDir projectFile) = true)
    (document : f.readDocument ctx.files (Path.join ctx.projectDir projectFile) = .ok v)
    (unversioned : isUnversioned v = true) :
    checkVersion f ctx = .issue (versionIssue (Path.join ctx.projectDir projectFile)) .done := by
  unfold checkVersion
  simp only [present, document]
  exact if_pos unversioned

theorem checkVersion_of_unreadable {fault : Fault}
    (present : ctx.files.pathExists (Path.join ctx.projectDir projectFile) = true)
    (document : f.readDocument ctx.files (Path.join ctx.projectDir projectFile) = .error fault) :
    checkVersion f ctx = .fail fault := by
  simp [checkVersion, present, document]

/-- The look at a project's source warns of it, or fails because its file cannot be read, or has nothing
to say. -/
theorem checkVersion_cases (f : Formats) (ctx : LintContext) :
    let path := Path.join ctx.projectDir projectFile
    (ctx.files.pathExists path = true ∧
      ∃ v, f.readDocument ctx.files path = .ok v ∧ isUnversioned v = true) ∨
    (ctx.files.pathExists path = true ∧ ∃ fault, f.readDocument ctx.files path = .error fault) ∨
    checkVersion f ctx = .done := by
  intro path
  cases present : ctx.files.pathExists path with
  | false => exact .inr (.inr (by simp [checkVersion, path, present] at *))
  | true =>
    cases document : f.readDocument ctx.files path with
    | error fault => exact .inr (.inl ⟨rfl, fault, rfl⟩)
    | ok v =>
      cases unversioned : isUnversioned v with
      | true => exact .inl ⟨rfl, v, rfl, unversioned⟩
      | false =>
        refine .inr (.inr ?_)
        have hversioned : ¬isUnversioned v = true := by rw [unversioned]; decide
        unfold checkVersion
        simp only [path] at present document
        simp only [present, document]
        exact if_neg hversioned

end Version

end Testcraft

/-! ## A script with one issue -/

namespace Script

variable {hide : Issue → Except Fault Bool} {i : Issue}

theorem ending_undecided {fault : Fault} (h : hide i = .error fault) :
    ((issue i done).hideIssues hide).ending = .error (.fault fault) := by
  unfold hideIssues; rw [h]; rfl

theorem ending_hidden (h : hide i = .ok true) : ((issue i done).hideIssues hide).ending = .ok 0 := by
  unfold hideIssues; rw [h]; rfl

theorem ending_shown (h : hide i = .ok false) :
    ((issue i done).hideIssues hide).ending = .ok (Report.exitStatus (some i.severity)) := by
  unfold hideIssues; rw [h]; rfl

end Script

/-! ## How the stage ends -/

namespace Testcraft

variable {f : Formats} {tools : Artifact.Tools} {files tree : FileTree} {options : LintOptions}
variable {projectDir dir : String} {r : StageRequest}

theorem Inspects.exists_starts (h : Inspects tools files options projectDir dir tree) :
    ∃ r, (setup f tools).Starts files options r ∧ ∀ o, ((setup f tools).runStage o r).result =
      ((checkContent tree [dir]).hideIssues
        ((rulesIn f files options projectDir tree).hides "testcraft.empty_artifact")).ending := by
  cases h with
  | unpacked located packed opens =>
    exact ⟨_, .unpacked located packed opens, fun o => result_runStage f tools o _⟩
  | built located plain post present =>
    refine ⟨_, .plain located plain, fun o => ?_⟩
    rw [result_runStage]
    unfold LintSetup.sourceRequest LintSetup.primeDirs
    rw [if_pos post, if_pos present, post]
    rfl

theorem Reads.exists_starts (h : Reads files options projectDir) :
    ∃ r project, (setup f tools).Starts files options r ∧ ∀ o, ((setup f tools).runStage o r).result =
      ((checkVersion f { projectDir, project, files }).hideIssues
        ((rulesIn f files options projectDir files).hides "testcraft.missing_version")).ending := by
  obtain ⟨located, plain, pre⟩ := h
  rename_i file
  refine ⟨_, Project.loadModel f files file, .plain located plain, fun o => ?_⟩
  rw [result_runStage]
  unfold LintSetup.sourceRequest
  rw [pre, if_neg (by decide)]
  rfl

theorem Idles.exists_starts (h : Idles files options) :
    ∃ r, (setup f tools).Starts files options r ∧ ∀ o, ((setup f tools).runStage o r).result = .ok 0 := by
  obtain ⟨located, plain, post, absent⟩ := h
  refine ⟨_, .plain located plain, fun o => ?_⟩
  rw [result_runStage]
  unfold LintSetup.sourceRequest LintSetup.primeDirs
  rw [if_pos post, if_neg (by rw [absent]; decide), post]
  rfl

/-- There is one thing that a stage looks at, if there is anything. -/
theorem lookup_cases (h : (setup f tools).Starts files options r) :
    (∃ projectDir dir tree, Inspects tools files options projectDir dir tree) ∨
      (∃ projectDir, Reads files options projectDir) ∨ Idles files options := by
  cases h with
  | unpacked located packed opens => exact .inl ⟨_, _, _, .unpacked located packed opens⟩
  | @plain file located plain =>
    cases stage : options.stage with
    | pre => exact .inr (.inl ⟨_, located, plain, stage⟩)
    | post =>
      cases present : files.pathExists (Path.join (Path.dirname file) primeDir) with
      | true => exact .inl ⟨_, _, _, .built located plain stage present⟩
      | false => exact .inr (.inr ⟨located, plain, stage, present⟩)

/-- What the stage of a command can come to. -/
inductive Outcome (f : Formats) (tools : Artifact.Tools) (files : FileTree) (options : LintOptions) :
    Except Failure Nat → Prop
  | broken {fault : Fault} (breaks : Breaks f tools files options fault) :
      Outcome f tools files options (.error (.fault fault))
  | reported (reports : Reports f tools files options) : Outcome f tools files options (.ok 2)
  | quiet : Outcome f tools files options (.ok 0)

theorem stage_outcome (starts : (setup f tools).Starts files options r) (o : Orchestrator) :
    Outcome f tools files options ((setup f tools).runStage o r).result := by
  rcases lookup_cases starts with ⟨projectDir, dir, tree, inspects⟩ | ⟨projectDir, reads⟩ | idles
  · obtain ⟨r', starts', hresult⟩ := inspects.exists_starts (f := f)
    obtain rfl := starts.unique starts'
    rw [hresult]
    rcases checkContent_cases tree dir with empty | ⟨e, present, listing⟩ | hnothing
    · rw [checkContent_of_empty empty]
      cases decision : (rulesIn f files options projectDir tree).hides "testcraft.empty_artifact"
          (emptyIssue dir) with
      | error fault =>
        rw [Script.ending_undecided decision]
        exact .broken (.undecidedArtifact inspects empty decision)
      | ok hidden =>
        cases hidden with
        | true => rw [Script.ending_hidden decision]; exact .quiet
        | false =>
          rw [Script.ending_shown decision]
          exact .reported ⟨projectDir, dir, tree, inspects, empty, decision⟩
    · rw [checkContent_of_unlisted present listing]
      exact .broken (.unlisted inspects present listing)
    · rw [hnothing]; exact .quiet
  · obtain ⟨r', project, starts', hresult⟩ := @Reads.exists_starts f tools files options projectDir reads
    obtain rfl := starts.unique starts'
    rw [hresult]
    rcases checkVersion_cases f { projectDir, project, files } with ⟨present, v, document, unversioned⟩ |
      ⟨present, fault, document⟩ | hnothing
    · rw [checkVersion_of_unversioned present document unversioned]
      cases decision : (rulesIn f files options projectDir files).hides "testcraft.missing_version"
          (versionIssue (Path.join projectDir projectFile)) with
      | error fault =>
        rw [Script.ending_undecided decision]
        exact .broken (.undecidedVersion reads present document unversioned decision)
      | ok hidden =>
        -- the issue is but a warning, so it is all one whether it is hidden
        cases hidden with
        | true => rw [Script.ending_hidden decision]; exact .quiet
        | false => rw [Script.ending_shown decision]; exact .quiet
    · rw [checkVersion_of_unreadable present document]
      exact .broken (.unreadable reads present document)
    · rw [hnothing]; exact .quiet
  · obtain ⟨r', starts', hresult⟩ := @Idles.exists_starts f tools files options idles
    obtain rfl := starts.unique starts'
    rw [hresult]
    exact .quiet

/-- A fault that breaks off the run is how the stage ends that the command starts. -/
theorem Breaks.exists_starts {fault : Fault} (h : Breaks f tools files options fault) :
    ∃ r, (setup f tools).Starts files options r ∧
      ∀ o, ((setup f tools).runStage o r).result = .error (.fault fault) := by
  cases h with
  | unreadable reads present document =>
    obtain ⟨r, project, starts, hresult⟩ := reads.exists_starts (f := f)
    refine ⟨r, starts, fun o => ?_⟩
    rw [hresult, checkVersion_of_unreadable present document]; rfl
  | undecidedVersion reads present document unversioned undecided =>
    obtain ⟨r, project, starts, hresult⟩ := reads.exists_starts (f := f)
    refine ⟨r, starts, fun o => ?_⟩
    rw [hresult, checkVersion_of_unversioned present document unversioned]
    exact Script.ending_undecided undecided
  | unlisted inspects present listing =>
    obtain ⟨r, starts, hresult⟩ := inspects.exists_starts (f := f)
    refine ⟨r, starts, fun o => ?_⟩
    rw [hresult, checkContent_of_unlisted present listing]; rfl
  | undecidedArtifact inspects empty undecided =>
    obtain ⟨r, starts, hresult⟩ := inspects.exists_starts (f := f)
    refine ⟨r, starts, fun o => ?_⟩
    rw [hresult, checkContent_of_empty empty]
    exact Script.ending_undecided undecided

/-- So is the report of an empty artifact. -/
theorem Reports.exists_starts (h : Reports f tools files options) :
    ∃ r, (setup f tools).Starts files options r ∧ ∀ o, ((setup f tools).runStage o r).result = .ok 2 := by
  obtain ⟨projectDir, dir, tree, inspects, empty, shown⟩ := h
  obtain ⟨r, starts, hresult⟩ := inspects.exists_starts (f := f)
  refine ⟨r, starts, fun o => ?_⟩
  rw [hresult, checkContent_of_empty empty]
  exact Script.ending_shown shown

/-! ## How the command ends -/

/-- A command ends with a fault when one is raised on the way. -/
theorem lint_eq_fault_iff_raises (o : Orchestrator) (fault : Fault) :
    ((setup f tools).lint o files options).result = .error (.fault fault) ↔
      Raises f tools files options fault := by
  rw [LintSetup.lint_eq_fault_iff]
  constructor
  · rintro (stumbles | ⟨r, issues, starts, breaks⟩ | ⟨r, status, starts, succeeds, sticks⟩)
    · exact .stumbled stumbles
    · have houtcome := stage_outcome starts o
      rw [LintSetup.exists_breaksOff_iff.1 ⟨issues, breaks⟩] at houtcome
      cases houtcome with
      | broken breaks => exact .broken breaks
    · refine .stuck sticks fun other breaks => ?_
      obtain ⟨r', starts', hresult⟩ := breaks.exists_starts
      obtain rfl := starts.unique starts'
      rw [hresult] at succeeds
      cases succeeds
  · rintro (stumbles | breaks | ⟨sticks, unbroken⟩)
    · exact .inl stumbles
    · obtain ⟨r, starts, hresult⟩ := breaks.exists_starts
      obtain ⟨issues, breaks⟩ := LintSetup.exists_breaksOff_iff.2 (hresult o)
      exact .inr (.inl ⟨r, issues, starts, breaks⟩)
    · obtain ⟨r, starts⟩ := sticks.exists_starts
      have houtcome := stage_outcome starts o
      refine .inr (.inr ⟨r, ?_⟩)
      cases hresult : ((setup f tools).runStage o r).result with
      | ok status => exact ⟨status, starts, rfl, sticks⟩
      | error failure =>
        rw [hresult] at houtcome
        cases houtcome with
        | broken breaks => exact absurd breaks (unbroken _)

/-- A command that succeeds has succeeded with its stage, and nothing sticks. -/
theorem outcome_of_ok {o : Orchestrator} {status : Nat}
    (h : ((setup f tools).lint o files options).result = .ok status) :
    Outcome f tools files options (.ok status) ∧ ∀ fault, ¬(setup f tools).Sticks files options fault := by
  rcases (setup f tools).stumbles_or_refuses_or_starts files options with
    ⟨fault, stumbles⟩ | ⟨e, refused⟩ | ⟨r, starts⟩
  · rw [(LintSetup.lint_of_stumbles stumbles o).1] at h
    cases h
  · rw [(LintSetup.lint_of_refuses refused o).1] at h
    cases h
  · obtain ⟨-, -, raised?, hraised, hresult⟩ := LintSetup.lint_of_starts starts o
    have houtcome := stage_outcome starts o
    rw [hresult] at h
    rw [Failure.of_behind_eq_ok h] at houtcome h
    refine ⟨houtcome, fun fault sticks => ?_⟩
    rw [(hraised fault).2 sticks] at h
    cases h

/-- A command ends with the status of an error when an artifact is reported as empty. -/
theorem lint_eq_two_iff (o : Orchestrator) : ((setup f tools).lint o files options).result = .ok 2 ↔
    Reports f tools files options ∧ ∀ fault, ¬(setup f tools).Sticks files options fault := by
  constructor
  · intro h
    obtain ⟨houtcome, hfree⟩ := outcome_of_ok h
    cases houtcome with
    | reported reports => exact ⟨reports, hfree⟩
  · rintro ⟨reports, hfree⟩
    obtain ⟨r, starts, hstaged⟩ := reports.exists_starts
    obtain ⟨-, -, raised?, hraised, hresult⟩ := LintSetup.lint_of_starts starts o
    have hnone : raised? = none := Option.eq_none_iff_forall_ne_some.2 fun fault h =>
      hfree fault ((hraised fault).1 h)
    rw [hresult, hnone, hstaged o, Failure.behind_none]

/-- Nothing is reported of a project's source. -/
theorem not_reports_of_pre (plain : options.postArtifact = none) (pre : options.stage = .pre) :
    ¬Reports f tools files options := by
  rintro ⟨projectDir, dir, tree, inspects, -, -⟩
  cases inspects with
  | unpacked located packed opens => rw [plain] at packed; cases packed
  | built located plain post present => rw [pre] at post; cases post

/-- The result of a command: a failure of either kind, or one of two statuses. -/
theorem result_cases (o : Orchestrator) :
    let result := ((setup f tools).lint o files options).result
    (∃ e, result = .error (.app e)) ∨ (∃ fault, result = .error (.fault fault)) ∨ result = .ok 2 ∨
      result = .ok 0 := by
  intro result
  cases hresult : result with
  | error failure =>
    rcases LintSetup.failure_cases hresult with ⟨e, rfl, -⟩ | ⟨fault, rfl, -⟩
    · exact .inl ⟨e, rfl⟩
    · exact .inr (.inl ⟨fault, rfl⟩)
  | ok status =>
    obtain ⟨houtcome, -⟩ := outcome_of_ok hresult
    cases houtcome with
    | reported reports => exact .inr (.inr (.inl rfl))
    | quiet => exact .inr (.inr (.inr rfl))

end Testcraft

/-! ## The status -/

namespace ProgramRun

/-- The status of the program for the result of its lint command. -/
def statusOf : Except Failure Nat → Nat
  | .ok status => status
  | .error _ => failureStatus

theorem status_of_parse (s : LintSetup) (debug : Bool) (files : FileTree) {args : List String}
    {options : LintOptions} (hparse : LintOptions.parse args = .ok options)
    (hhelp : options.help = false) :
    (s.run debug files args).status = statusOf (s.lint {} files options).result := by
  unfold LintSetup.run
  rw [hparse]
  simp only [hhelp]
  cases (s.lint {} files options).result <;> rfl

/-- The status tells a failure, an empty artifact and all else apart. -/
theorem statusOf_spec {result : Except Failure Nat} (h : (∃ e, result = .error (.app e)) ∨
      (∃ fault, result = .error (.fault fault)) ∨ result = .ok 2 ∨ result = .ok 0) :
    let status := statusOf result
    (status = 1 ↔ (∃ e, result = .error (.app e)) ∨ ∃ fault, result = .error (.fault fault)) ∧
      (status = 2 ↔ result = .ok 2) ∧ (status = 0 ∨ status = 1 ∨ status = 2) := by
  unfold statusOf failureStatus
  rcases h with ⟨e, rfl⟩ | ⟨fault, rfl⟩ | rfl | rfl <;> simp

end ProgramRun

/-- The exit status of the command, for every file tree, all tools and all arguments. It is 64 when the
arguments are not understood. Else it is 0 when help is asked for; 1 when the command ends with a failure,
that is when it is refused or a fault is raised on the way; 2 when an artifact is reported as empty and no
temporary directory is left, which does not happen before the build; and 0 in all other cases. -/
theorem run_status_iff (f : Formats) (tools : Artifact.Tools) (debug : Bool) (files : FileTree)
    (args : List String) :
    let setup := Testcraft.setup f tools
    let status := (setup.run debug files args).status
    (status = 64 ↔ ∃ e, LintOptions.parse args = .error e) ∧
    ∀ options, LintOptions.parse args = .ok options →
      (options.help = true → status = 0) ∧
      (options.help = false →
        let result := (setup.lint {} files options).result
        (status = 1 ↔ (∃ e, result = .error (.app e)) ∨ ∃ fault, result = .error (.fault fault)) ∧
        (∀ e, result = .error (.app e) ↔ setup.Refuses files options e) ∧
        (∀ fault, result = .error (.fault fault) ↔ Testcraft.Raises f tools files options fault) ∧
        (status = 2 ↔ Testcraft.Reports f tools files options ∧
          ∀ fault, ¬setup.Sticks files options fault) ∧
        (status = 0 ∨ status = 1 ∨ status = 2) ∧
        (options.postArtifact = none → options.stage = .pre → status ≠ 2)) := by
  intro setup status
  cases hparse : LintOptions.parse args with
  | error e =>
    have hstatus : status = 64 := by
      simp only [status, LintSetup.run, hparse]; rfl
    exact ⟨iff_of_true hstatus ⟨e, rfl⟩, fun options h => by cases h⟩
  | ok options =>
    have hhelped : options.help = true → status = 0 := by
      intro hhelp
      simp only [status, LintSetup.run, hparse, hhelp]; rfl
    obtain ⟨hone, htwo, hcases⟩ :=
      ProgramRun.statusOf_spec (@Testcraft.result_cases f tools files options {})
    have hlinted : options.help = false →
        status = ProgramRun.statusOf (setup.lint {} files options).result :=
      ProgramRun.status_of_parse setup debug files hparse
    refine ⟨iff_of_false ?_ ?_, ?_⟩
    · cases hhelp : options.help with
      | true => rw [hhelped hhelp]; decide
      | false => rcases hcases with h | h | h <;> rw [hlinted hhelp, h] <;> decide
    · rintro ⟨e, he⟩; cases he
    · rintro _ ⟨⟩
      refine ⟨hhelped, fun hhelp => ?_⟩
      rw [hlinted hhelp]
      have hreports := htwo.trans (Testcraft.lint_eq_two_iff {})
      exact ⟨hone, fun _ => LintSetup.lint_eq_app_iff, Testcraft.lint_eq_fault_iff_raises {}, hreports,
        hcases, fun plain pre h => Testcraft.not_reports_of_pre plain pre (hreports.1 h).1⟩

/-- An artifact that holds nothing but its metadata is an error, unless a rule of the command line hides
it on just that file. -/
example :
    let setup := Testcraft.setup ⟨fun _ => .error .document, fun _ => none⟩
    let project : FileTree := FileTree.put {} ["testcraft.yaml"] (.text "")
    let files := project.put ["prime", "metadata.yaml"] (.text "")
    let ignored := "--lint-ignore=testcraft.empty_artifact:TC100=*/metadata.yaml"
    (setup.run false files ["--stage", "post"]).status = 2 ∧
      (setup.run false files ["--stage", "post", ignored]).status = 0 := by
  decide +kernel

end LintEngine

/-
What a lint command comes to before its linters run. It may stumble over a path that cannot be looked at;
it may be refused, for one of four reasons that are looked for one after the other; else it starts one
stage (`stumbles_or_refuses_or_starts`). Then it ends as that stage does, unless the temporary directory of
an artifact cannot be removed behind it (`lint_of_starts`).
-/
import LintEngine.Command.Lint
import LintEngine.Proofs.Files.Follow

namespace LintEngine

/-! ## Finding the project -/

namespace Project

variable {files : FileTree} {path app : String}

/-- The path leads to a file, or the directory that it means has a project file. -/
def IsFound (files : FileTree) (path app : String) : Prop :=
  files.isFile (pathOf files path) = true ∨ files.pathExists (candidate files path app) = true

theorem locate_of_lookFault {fault : FileFault} (h : files.lookFault? (pathOf files path) = some fault) :
    locate files path app = .error (.fault (.file fault)) := by
  unfold locate
  rw [h]

theorem locate_eq_ok_iff {projectFile : String} : locate files path app = .ok projectFile ↔
    files.lookFault? (pathOf files path) = none ∧ resolve files path app = .ok projectFile := by
  unfold locate
  cases files.lookFault? (pathOf files path) with
  | some fault => simp
  | none => cases resolve files path app <;> simp

theorem IsFound.exists_locate (seen : files.lookFault? (pathOf files path) = none)
    (h : IsFound files path app) : ∃ projectFile, locate files path app = .ok projectFile := by
  by_cases hfile : files.isFile (pathOf files path) = true
  · exact ⟨_, locate_eq_ok_iff.2 ⟨seen, if_pos hfile⟩⟩
  · exact ⟨_, locate_eq_ok_iff.2 ⟨seen, (if_neg hfile).trans (if_pos (h.resolve_left hfile))⟩⟩

theorem locate_of_not_isFound (seen : files.lookFault? (pathOf files path) = none)
    (h : ¬IsFound files path app) : locate files path app =
      .error (.app (.projectNotFound (candidate files path app) ("Could not find " ++ fileName app))) := by
  obtain ⟨hfile, hcandidate⟩ := not_or.1 h
  unfold locate resolve
  rw [seen, if_neg hfile, if_neg hcandidate]

end Project

/-! ## Unpacking the artifact -/

namespace Artifact

/-- The temporary directory of an artifact, and the file tree in which its consumer is called. -/
inductive Opens (tools : Tools) (files : FileTree) (artifact tempName : String) :
    String → FileTree → Prop
  | intro {entry : Entry} {dir : String} {made tree : FileTree}
      (present : files.at? artifact = some entry) (packed : entry.isFile = true)
      (created : tools.makeTemp files (tools.template tempName) = (.ok dir, made))
      (extracted : tools.extract made entry dir = (.ok (), tree)) :
      Opens tools files artifact tempName dir tree

/-- Why an artifact cannot be worked on: it is no file, else there is no directory to be had for it,
else it cannot be unpacked. -/
inductive Refuses (tools : Tools) (files : FileTree) (artifact tempName : String) : AppError → Prop
  | noFile (absent : files.isFile artifact = false) :
      Refuses tools files artifact tempName (.artifact artifact "does not exist")
  | noDirectory {detail : String} {left : FileTree} (present : files.isFile artifact = true)
      (failed : tools.makeTemp files (tools.template tempName) = (.error detail, left)) :
      Refuses tools files artifact tempName
        (.files ("Cannot create temporary directory: " ++ detail) (some (tools.template tempName)))
  | notUnpacked {entry : Entry} {dir detail : String} {made left : FileTree}
      (present : files.at? artifact = some entry) (packed : entry.isFile = true)
      (created : tools.makeTemp files (tools.template tempName) = (.ok dir, made))
      (failed : tools.extract made entry dir = (.error detail, left)) :
      Refuses tools files artifact tempName
        (.artifact artifact ("is not a supported tarball: " ++ detail))

variable {α : Type} {tools : Tools} {files tree : FileTree} {artifact tempName dir : String}

theorem refuses_or_opens (tools : Tools) (files : FileTree) (artifact tempName : String) :
    (∃ e, Refuses tools files artifact tempName e) ∨
      ∃ dir tree, Opens tools files artifact tempName dir tree := by
  cases hfile : files.isFile artifact with
  | false => exact .inl ⟨_, .noFile hfile⟩
  | true =>
    obtain ⟨entry, present, packed⟩ := FileTree.isFile_iff.1 hfile
    rcases created : tools.makeTemp files (tools.template tempName) with ⟨detail | dir, made⟩
    · exact .inl ⟨_, .noDirectory hfile created⟩
    · rcases extracted : tools.extract made entry dir with ⟨detail | ⟨⟩, tree⟩
      · exact .inl ⟨_, .notUnpacked present packed created extracted⟩
      · exact .inr ⟨dir, tree, present, packed, created, extracted⟩

theorem Opens.looked (h : Opens tools files artifact tempName dir tree) :
    files.lookFault? artifact = none := by
  obtain ⟨present, -, -, -⟩ := h
  exact FileTree.lookFault?_of_at? present

/-- There is one directory at most in which an artifact is worked on. -/
theorem Opens.unique {dir' : String} {tree' : FileTree} (h : Opens tools files artifact tempName dir tree)
    (h' : Opens tools files artifact tempName dir' tree') : dir = dir' ∧ tree = tree' := by
  obtain ⟨present, -, created, extracted⟩ := h
  obtain ⟨present', -, created', extracted'⟩ := h'
  rw [present] at present'
  cases present'
  rw [created] at created'
  cases created'
  rw [extracted] at extracted'
  cases extracted'
  exact ⟨rfl, rfl⟩

/-- An artifact that can be worked on is worked on in its directory, which is removed then. -/
theorem Opens.withUnpackedBy_eq (h : Opens tools files artifact tempName dir tree)
    (use : String → FileTree → α) : withUnpackedBy tools files artifact tempName use =
      .removing tools tree dir ["Unpacking " ++ artifact ++ " into " ++ dir] (.ok (use dir tree)) := by
  obtain ⟨present, packed, created, extracted⟩ := h
  rename_i entry made
  unfold withUnpackedBy
  rw [present]
  cases entry with
  | directory => cases packed
  | text _ | bytes _ | archive _ | closed => simp only [created, extracted]

theorem Refuses.result_eq {e : AppError} (h : Refuses tools files artifact tempName e)
    (use : String → FileTree → α) :
    (withUnpackedBy tools files artifact tempName use).result = .error e := by
  cases h with
  | noFile absent =>
    unfold FileTree.isFile at absent
    unfold withUnpackedBy
    cases hentry : files.at? artifact with
    | none => rfl
    | some entry =>
      rw [hentry] at absent
      cases entry with
      | directory => rfl
      | text _ | bytes _ | archive _ | closed => cases absent
  | noDirectory present failed =>
    obtain ⟨entry, hentry, packed⟩ := FileTree.isFile_iff.1 present
    unfold withUnpackedBy
    rw [hentry]
    cases entry with
    | directory => cases packed
    | text _ | bytes _ | archive _ | closed => simp only [failed]
  | notUnpacked present packed created failed =>
    rename_i entry dir detail made left
    unfold withUnpackedBy
    rw [present]
    cases entry with
    | directory => cases packed
    | text _ | bytes _ | archive _ | closed => simp only [created, failed]; rfl

end Artifact

namespace LintSetup

/-! ## Ways to start and not to start -/

/-- The stage that is run on the directory with the entries of an artifact. -/
def artifactRequest (s : LintSetup) (files : FileTree) (options : LintOptions) (projectFile dir : String)
    (tree : FileTree) : StageRequest where
  stage := .post
  subject := "artifacts"
  cliIgnores := (s.cliIgnores files options).2
  ctx := { projectDir := Path.dirname projectFile, artifactDirs := [dir],
           project := Project.loadModel s.formats files projectFile, files := tree }

/-- The stage that is run on a project where it is. -/
def sourceRequest (s : LintSetup) (files : FileTree) (options : LintOptions) (projectFile : String) :
    StageRequest where
  stage := options.stage
  subject := Path.basename projectFile
  cliIgnores := (s.cliIgnores files options).2
  ctx :=
    { projectDir := Path.dirname projectFile
      artifactDirs := if options.stage = .post then primeDirs files (Path.dirname projectFile) else []
      project := Project.loadModel s.formats files projectFile
      files }

/-- A path that a command has to go by cannot be looked at: that of the project, or else that of the
artifact. -/
inductive Stumbles (s : LintSetup) (files : FileTree) (options : LintOptions) : Fault → Prop
  | project {fault : FileFault}
      (unseen : files.lookFault? (Project.pathOf files options.projectPath) = some fault) :
      Stumbles s files options (.file fault)
  | artifact {projectFile artifact : String} {fault : FileFault}
      (located : Project.locate files options.projectPath s.app = .ok projectFile)
      (packed : options.postArtifact = some artifact)
      (unseen : files.lookFault? artifact = some fault) : Stumbles s files options (.file fault)

/-- Why a command is not carried out: there is no project, or else its artifact cannot be worked on. -/
inductive Refuses (s : LintSetup) (files : FileTree) (options : LintOptions) : AppError → Prop
  | noProject (seen : files.lookFault? (Project.pathOf files options.projectPath) = none)
      (absent : ¬Project.IsFound files options.projectPath s.app) :
      Refuses s files options (.projectNotFound (Project.candidate files options.projectPath s.app)
        ("Could not find " ++ Project.fileName s.app))
  | noArtifact {artifact : String} {e : AppError}
      (seen : files.lookFault? (Project.pathOf files options.projectPath) = none)
      (found : Project.IsFound files options.projectPath s.app)
      (packed : options.postArtifact = some artifact) (looked : files.lookFault? artifact = none)
      (refused : Artifact.Refuses s.tools files artifact (s.app ++ "-lint-") e) :
      Refuses s files options e

/-- The stage that a command gets to run. -/
inductive Starts (s : LintSetup) (files : FileTree) (options : LintOptions) : StageRequest → Prop
  | unpacked {projectFile artifact dir : String} {tree : FileTree}
      (located : Project.locate files options.projectPath s.app = .ok projectFile)
      (packed : options.postArtifact = some artifact)
      (opens : Artifact.Opens s.tools files artifact (s.app ++ "-lint-") dir tree) :
      Starts s files options (s.artifactRequest files options projectFile dir tree)
  | plain {projectFile : String}
      (located : Project.locate files options.projectPath s.app = .ok projectFile)
      (unpacked : options.postArtifact = none) :
      Starts s files options (s.sourceRequest files options projectFile)

/-- The temporary directory of an artifact that has been worked on cannot be removed. -/
inductive Sticks (s : LintSetup) (files : FileTree) (options : LintOptions) : Fault → Prop
  | intro {projectFile artifact dir : String} {tree : FileTree} {fault : FileFault}
      (located : Project.locate files options.projectPath s.app = .ok projectFile)
      (packed : options.postArtifact = some artifact)
      (opens : Artifact.Opens s.tools files artifact (s.app ++ "-lint-") dir tree)
      (stuck : s.tools.stuck? tree dir = some fault) : Sticks s files options (.file fault)

variable {s : LintSetup} {files : FileTree} {options : LintOptions} {o : Orchestrator} {r : StageRequest}

theorem stumbles_or_refuses_or_starts (s : LintSetup) (files : FileTree) (options : LintOptions) :
    (∃ fault, s.Stumbles files options fault) ∨ (∃ e, s.Refuses files options e) ∨
      ∃ r, s.Starts files options r := by
  cases seen : files.lookFault? (Project.pathOf files options.projectPath) with
  | some fault => exact .inl ⟨_, .project seen⟩
  | none =>
    by_cases found : Project.IsFound files options.projectPath s.app
    · obtain ⟨projectFile, located⟩ := found.exists_locate seen
      cases packed : options.postArtifact with
      | none => exact .inr (.inr ⟨_, .plain located packed⟩)
      | some artifact =>
        cases looked : files.lookFault? artifact with
        | some fault => exact .inl ⟨_, .artifact located packed looked⟩
        | none =>
          rcases Artifact.refuses_or_opens s.tools files artifact (s.app ++ "-lint-") with
            ⟨e, refused⟩ | ⟨dir, tree, opens⟩
          · exact .inr (.inl ⟨e, .noArtifact seen found packed looked refused⟩)
          · exact .inr (.inr ⟨_, .unpacked located packed opens⟩)
    · exact .inr (.inl ⟨_, .noProject seen found⟩)

/-- There is one stage at most that a command gets to run. -/
theorem Starts.unique {r' : StageRequest} (h : s.Starts files options r) (h' : s.Starts files options r') :
    r = r' := by
  cases h with
  | unpacked located packed opens =>
    cases h' with
    | unpacked located' packed' opens' =>
      rw [located] at located'
      rw [packed] at packed'
      cases located'
      cases packed'
      obtain ⟨rfl, rfl⟩ := opens.unique opens'
      rfl
    | plain located' unpacked' => rw [packed] at unpacked'; cases unpacked'
  | plain located unpacked =>
    cases h' with
    | unpacked located' packed' opens' => rw [unpacked] at packed'; cases packed'
    | plain located' unpacked' =>
      rw [located] at located'
      cases located'
      rfl

theorem Sticks.exists_starts {fault : Fault} (h : s.Sticks files options fault) :
    ∃ r, s.Starts files options r := by
  obtain ⟨located, packed, opens, -⟩ := h
  exact ⟨_, .unpacked located packed opens⟩

/-! ## The command -/

theorem lint_of_unlocated {failure : Failure}
    (unlocated : Project.locate files options.projectPath s.app = .error failure) (o : Orchestrator) :
    s.lint o files options = .broken failure [] o files := by
  unfold lint
  rw [unlocated]

theorem lint_of_source {projectFile : String}
    (located : Project.locate files options.projectPath s.app = .ok projectFile)
    (unpacked : options.postArtifact = none) (o : Orchestrator) :
    s.lint o files options = (s.runStage o (s.sourceRequest files options projectFile)).afterLog
      ((s.cliIgnores files options).1.map .debug) := by
  unfold lint
  rw [located, unpacked]
  rfl

section Artifact

variable {projectFile artifact : String}
  (located : Project.locate files options.projectPath s.app = .ok projectFile)
  (packed : options.postArtifact = some artifact)
include located packed

theorem lint_of_unseen {fault : FileFault} (unseen : files.lookFault? artifact = some fault)
    (o : Orchestrator) : s.lint o files options =
      .broken (.fault (.file fault)) ((s.cliIgnores files options).1.map .debug) o files := by
  unfold lint
  rw [located, packed]
  simp only [unseen]

/-- With a packed artifact the command is the one stage on its directory, with debug lines around what
that one writes, unless the artifact cannot be worked on. -/
theorem lint_of_artifact (looked : files.lookFault? artifact = none) (o : Orchestrator) :
    let used := Artifact.withUnpackedBy s.tools files artifact (s.app ++ "-lint-")
      fun dir tree => s.runStage o (s.artifactRequest files options projectFile dir tree)
    let before := ((s.cliIgnores files options).1 ++ used.before).map LogLine.debug
    let after := used.after.map LogLine.debug
    s.lint o files options =
      match used.result with
      | .error e => .broken (.app e) (before ++ after) o used.files
      | .ok run =>
        { run with
          result := Failure.behind (used.stuck.map .file) run.result
          log := before ++ run.log ++ after
          files := used.files } := by
  intro used before after
  simp only [before, List.map_append]
  unfold lint
  rw [located, packed]
  simp only [looked]
  rfl

theorem lint_of_opens {dir : String} {tree : FileTree}
    (opens : Artifact.Opens s.tools files artifact (s.app ++ "-lint-") dir tree) (o : Orchestrator) :
    ∃ before after : List String, s.lint o files options =
      let run := s.runStage o (s.artifactRequest files options projectFile dir tree)
      { run with
        result := Failure.behind ((s.tools.stuck? tree dir).map .file) run.result
        log := before.map .debug ++ run.log ++ after.map .debug
        files := (s.tools.remove tree dir).2 } := by
  rw [lint_of_artifact located packed opens.looked, opens.withUnpackedBy_eq]
  exact ⟨_, _, rfl⟩

theorem sticks_iff {dir : String} {tree : FileTree}
    (opens : Artifact.Opens s.tools files artifact (s.app ++ "-lint-") dir tree) {fault : Fault} :
    s.Sticks files options fault ↔ (s.tools.stuck? tree dir).map .file = some fault := by
  constructor
  · rintro ⟨-, packed', opens', stuck⟩
    rw [packed] at packed'
    cases packed'
    obtain ⟨rfl, rfl⟩ := opens.unique opens'
    rw [stuck]
    rfl
  · intro h
    obtain ⟨fault, stuck, rfl⟩ := Option.map_eq_some_iff.1 h
    exact ⟨located, packed, opens, stuck⟩

end Artifact

theorem not_sticks_of_plain (unpacked : options.postArtifact = none) {fault : Fault} :
    ¬s.Sticks files options fault := by
  rintro ⟨-, packed, -, -⟩
  rw [unpacked] at packed
  cases packed

/-- A command that stumbles ends with what the system has against the path; it prints nothing and leaves
the orchestrator alone. -/
theorem lint_of_stumbles {fault : Fault} (h : s.Stumbles files options fault) (o : Orchestrator) :
    let run := s.lint o files options
    run.result = .error (.fault fault) ∧ run.state = o ∧ messagesOf run.log = [] ∧ run.files = files := by
  intro run
  cases h with
  | project unseen =>
    have hrun : run = _ := lint_of_unlocated (Project.locate_of_lookFault unseen) o
    rw [hrun]
    exact ⟨rfl, rfl, rfl, rfl⟩
  | artifact located packed unseen =>
    have hrun : run = _ := lint_of_unseen located packed unseen o
    rw [hrun]
    exact ⟨rfl, rfl, messagesOf_debug _, rfl⟩

/-- A command that is refused ends with the reason, prints nothing and leaves the orchestrator alone. -/
theorem lint_of_refuses {e : AppError} (h : s.Refuses files options e) (o : Orchestrator) :
    let run := s.lint o files options
    run.result = .error (.app e) ∧ run.state = o ∧ messagesOf run.log = [] := by
  intro run
  cases h with
  | noProject seen absent =>
    have hrun : run = _ := lint_of_unlocated (Project.locate_of_not_isFound seen absent) o
    rw [hrun]
    exact ⟨rfl, rfl, rfl⟩
  | noArtifact seen found packed looked refused =>
    obtain ⟨projectFile, located⟩ := found.exists_locate seen
    have hrun := lint_of_artifact located packed looked o
    simp only [refused.result_eq] at hrun
    have hrun : run = _ := hrun
    rw [hrun]
    refine ⟨rfl, rfl, ?_⟩
    simp [LintRun.broken]

/-- A command that gets to run a stage prints what that prints and collects what that collects. It ends as
the stage does, unless the stage succeeds and the temporary directory cannot be removed behind it. -/
theorem lint_of_starts (h : s.Starts files options r) (o : Orchestrator) :
    let run := s.lint o files options
    let staged := s.runStage o r
    run.state = staged.state ∧ messagesOf run.log = messagesOf staged.log ∧
      ∃ raised?, (∀ fault, raised? = some fault ↔ s.Sticks files options fault) ∧
        run.result = Failure.behind raised? staged.result := by
  intro run staged
  cases h with
  | unpacked located packed opens =>
    obtain ⟨before, after, hlint⟩ := lint_of_opens located packed opens o
    have hrun : run = _ := hlint
    rw [hrun]
    exact ⟨rfl, by simp [staged], _, fun _ => (sticks_iff located packed opens).symm, rfl⟩
  | plain located unpacked =>
    have hrun : run = _ := lint_of_source located unpacked o
    rw [hrun]
    refine ⟨rfl, ?_, none, fun fault => ?_, ?_⟩
    · simp [LintRun.afterLog, staged]
    · exact iff_of_false (by simp) (not_sticks_of_plain unpacked)
    · simp [LintRun.afterLog, staged]

end LintSetup

end LintEngine
